import AgreementIntelligence.Indexing.DocumentSink
import AgreementIntelligence.Indexing.UsableVectors

/-! What a run of the document sink leaves: a lawful index whose one active build of the agreement
is that of the source, unless the run is refused and leaves the index as it is. -/

namespace AgreementIntelligence.Indexing
open Identity Lib Lib.Table Lib.Json Lib.Results Agreements Evidence

variable {φ : Type} {tables after : IndexTables φ} {at_ : IndexScope} {buildId newId : Uuid}
  {checksum : String} {chunks : List RetrievalChunk}

/-- The constraints of the tables, and what the sinks keep besides: an agreement has one active
build, and only active builds have chunks. -/
structure IndexTables.Lawful (tables : IndexTables φ) : Prop where
  owned : ∀ build ∈ tables.builds.rows, ∃ agreement ∈ tables.agreements.rows,
    agreement.id = build.agreementId ∧ agreement.organizationId = build.organizationId ∧
    agreement.workspaceId = build.workspaceId
  sources : (tables.builds.rows.map (·.source)).Nodup
  oneActive : ∀ build ∈ tables.builds.rows, ∀ other ∈ tables.builds.rows, build.state = .active →
    other.state = .active → build.agreementId = other.agreementId → build = other
  chunks : ∀ chunk ∈ tables.chunks.rows, ∃ build ∈ tables.builds.rows,
    build.id = chunk.buildId ∧ build.state = .active
  embeddings : ∀ embedding ∈ tables.embeddings.rows, ∃ chunk ∈ tables.chunks.rows,
    chunk.key = embedding.chunk

def activeBuilds (tables : IndexTables φ) (agreementId : Uuid) : List RetrievalIndexBuild :=
  tables.builds.rows.filter fun build => build.agreementId = agreementId ∧ build.state = .active

/-- The scope is that of an agreement of the index. -/
def Located (tables : IndexTables φ) (at_ : IndexScope) : Prop :=
  ∃ agreement ∈ tables.agreements.rows, agreement.id = at_.agreementId ∧
    agreement.organizationId = at_.organizationId ∧ agreement.workspaceId = at_.workspaceId

theorem located_of_lock
    (locked : lockActiveAgreement tables.agreements at_.agreementId at_.organizationId
      at_.workspaceId = true) : Located tables at_ := by
  obtain ⟨agreement, member, found⟩ := List.any_eq_true.mp locked
  obtain ⟨named, organization, workspace, -⟩ := of_decide_eq_true found
  exact ⟨agreement, member, named, organization, workspace⟩

/-- In a lawful index the builds in the scope of an agreement are those of the agreement. -/
theorem IndexTables.Lawful.inScope_iff (lawful : tables.Lawful) (located : Located tables at_)
    {build : RetrievalIndexBuild} (member : build ∈ tables.builds.rows) :
    build.InScope at_ ↔ build.agreementId = at_.agreementId := by
  refine ⟨fun inside => inside.2.2, fun named => ?_⟩
  obtain ⟨agreement, held, id, organization, workspace⟩ := located
  obtain ⟨owner, there, ownerId, ownerOrganization, ownerWorkspace⟩ := lawful.owned build member
  have same : owner = agreement :=
    tables.agreements.eq_of_key there held (ownerId.trans (named.trans id.symm))
  subst same
  exact ⟨ownerOrganization.symm.trans organization, ownerWorkspace.symm.trans workspace, named⟩

/-! Inserting the chunks -/

theorem insertEach_ok {stored later : Keyed RetrievalChunkRow.key} {rows : List RetrievalChunkRow}
    (done : insertEach stored rows = .ok later) : later.rows = stored.rows ++ rows := by
  induction rows generalizing stored with
  | nil =>
      cases done
      exact (List.append_nil _).symm
  | cons row rest ih =>
      simp only [insertEach] at done
      split at done
      · cases done
      · rename_i next inserts
        rw [ih done, (Keyed.insert_eq_some inserts).2, List.append_assoc]
        rfl

theorem insertEach_of_fresh {stored : Keyed RetrievalChunkRow.key} {rows : List RetrievalChunkRow}
    (distinct : (rows.map (·.key)).Nodup)
    (fresh : ∀ old ∈ stored.rows, ∀ row ∈ rows, old.key ≠ row.key) :
    ∃ later, insertEach stored rows = .ok later := by
  induction rows generalizing stored with
  | nil => exact ⟨stored, rfl⟩
  | cons row rest ih =>
      rw [List.map_cons, List.nodup_cons] at distinct
      obtain ⟨next, inserts, whole⟩ := Keyed.insert_of_fresh fun old member =>
        fresh old member row List.mem_cons_self
      obtain ⟨later, done⟩ := @ih next distinct.2 fun old member other there => by
        rw [whole, List.mem_append, List.mem_singleton] at member
        rcases member with member | rfl
        · exact fresh old member other (List.mem_cons_of_mem row there)
        · exact fun same => distinct.1 (same ▸ List.mem_map_of_mem there)
      exact ⟨later, by simp only [insertEach, inserts, done]⟩

theorem insertEach_taken {stored : Keyed RetrievalChunkRow.key} {rows : List RetrievalChunkRow}
    (repeated : ¬ (rows.map (·.key)).Nodup) : ∃ raised, insertEach stored rows = .error raised := by
  cases done : insertEach stored rows with
  | error raised => exact ⟨raised, rfl⟩
  | ok later =>
      have whole := later.distinct
      rw [insertEach_ok done, List.map_append] at whole
      exact absurd (List.nodup_append.mp whole).2.1 repeated

/-- The rows of chunks are distinct as the chunks are. -/
theorem map_key_chunkRow :
    (chunks.map (chunkRow at_ buildId checksum)).map (·.key) =
      (chunks.map (·.chunkId)).map fun id => (at_.agreementId, buildId, id) := by
  simp [chunkRow, RetrievalChunkRow.key]

theorem nodup_map_key_chunkRow :
    ((chunks.map (chunkRow at_ buildId checksum)).map (·.key)).Nodup ↔
      (chunks.map (·.chunkId)).Nodup := by
  rw [map_key_chunkRow]
  refine List.nodup_map_iff fun one two same => ?_
  exact congrArg (·.2.2) same

/-! The states of the builds -/

/-- A build after the one of an id has taken the place of the active ones. -/
def settled (at_ : IndexScope) (buildId : Uuid) (build : RetrievalIndexBuild) : RetrievalIndexBuild :=
  if build.id = buildId then { build with state := .active }
  else if build.InScope at_ ∧ build.state = .active then { build with state := .stale }
  else build

theorem mem_staleIds {builds : Keyed RetrievalIndexBuild.id} {build : RetrievalIndexBuild}
    (member : build ∈ builds.rows) : build.id ∈ staleIds builds at_ buildId ↔
      build.InScope at_ ∧ build.state = .active ∧ build.id ≠ buildId := by
  simp only [staleIds, List.mem_map, List.mem_filter, decide_eq_true_eq]
  constructor
  · rintro ⟨other, ⟨there, facts⟩, same⟩
    rwa [builds.eq_of_key there member same] at facts
  · exact fun facts => ⟨build, ⟨member, facts⟩, rfl⟩

/-- No other active build remains when the stale ones are marked. -/
theorem markActive_markStale (builds : Keyed RetrievalIndexBuild.id) :
    ∃ later, markActive (markStale builds (staleIds builds at_ buildId)) at_ buildId = .ok later ∧
      later.rows = builds.rows.map (settled at_ buildId) := by
  have none_ : ¬ ∃ other ∈ (markStale builds (staleIds builds at_ buildId)).rows,
      other.InScope at_ ∧ other.state = .active ∧ other.id ≠ buildId := by
    rintro ⟨other, member, inside, active, apart⟩
    obtain ⟨old, there, rfl⟩ := Keyed.mem_updateWhere.mp member
    by_cases stale : old.id ∈ staleIds builds at_ buildId
    · rw [if_pos stale] at active
      cases active
    · rw [if_neg stale] at inside active apart
      exact stale ((mem_staleIds there).mpr ⟨inside, active, apart⟩)
  refine ⟨_, if_neg none_, ?_⟩
  simp only [Keyed.updateWhere, markStale, List.map_map]
  refine List.map_congr_left fun build member => ?_
  simp only [Function.comp_apply, mem_staleIds member, settled]
  by_cases named : build.id = buildId
  · simp [named]
  · by_cases facts : build.InScope at_ ∧ build.state = .active
    · simp [named, facts]
    · simp only [named, not_false_eq_true, ne_eq, and_true, facts, ↓reduceIte]

@[simp] theorem settled_id (build : RetrievalIndexBuild) : (settled at_ buildId build).id = build.id := by
  unfold settled
  split_ifs <;> rfl

@[simp] theorem settled_agreementId (build : RetrievalIndexBuild) :
    (settled at_ buildId build).agreementId = build.agreementId := by
  unfold settled
  split_ifs <;> rfl

@[simp] theorem settled_source (build : RetrievalIndexBuild) :
    (settled at_ buildId build).source = build.source := by
  unfold settled
  split_ifs <;> rfl

@[simp] theorem settled_scope (build : RetrievalIndexBuild) :
    (settled at_ buildId build).organizationId = build.organizationId ∧
      (settled at_ buildId build).workspaceId = build.workspaceId := by
  unfold settled
  split_ifs <;> exact ⟨rfl, rfl⟩

theorem settled_active {build : RetrievalIndexBuild} :
    (settled at_ buildId build).state = .active ↔
      build.id = buildId ∨ (¬ build.InScope at_ ∧ build.state = .active) := by
  unfold settled
  by_cases named : build.id = buildId
  · simp [named]
  · by_cases inside : build.InScope at_ <;> by_cases active : build.state = .active <;>
      simp [named, inside, active]

/-! The end of the transaction -/

/-- What `activate` leaves. -/
structure Activated (tables after : IndexTables φ) (at_ : IndexScope) (buildId : Uuid)
    (rows : List RetrievalChunkRow) : Prop where
  agreements : after.agreements = tables.agreements
  builds : after.builds.rows = tables.builds.rows.map (settled at_ buildId)
  chunks : ∀ chunk ∈ after.chunks.rows, (chunk ∈ tables.chunks.rows ∨ chunk ∈ rows) ∧
    chunk.buildId ∉ staleIds tables.builds at_ buildId
  kept : ∀ chunk ∈ tables.chunks.rows, chunk.buildId ∉ staleIds tables.builds at_ buildId →
    chunk ∈ after.chunks.rows
  embeddings : ∀ embedding ∈ after.embeddings.rows, embedding ∈ tables.embeddings.rows ∧
    embedding.buildId ∉ staleIds tables.builds at_ buildId

theorem activate_ok (some_ : chunks ≠ []) (distinct : (chunks.map (·.chunkId)).Nodup)
    (fresh : ∀ chunk ∈ tables.chunks.rows, chunk.buildId ≠ buildId) :
    ∃ after, activate tables at_ buildId checksum chunks = .ok after ∧
      Activated tables after at_ buildId (chunks.map (chunkRow at_ buildId checksum)) := by
  have apart : ∀ old ∈ tables.chunks.rows, ∀ row ∈ chunks.map (chunkRow at_ buildId checksum),
      old.key ≠ row.key := by
    intro old member row new same
    obtain ⟨chunk, -, rfl⟩ := List.mem_map.mp new
    exact fresh old member (congrArg (·.2.1) same)
  obtain ⟨later, inserted⟩ := insertEach_of_fresh
    ((@nodup_map_key_chunkRow at_ buildId checksum chunks).mpr distinct) apart
  obtain ⟨builds, marked, settles⟩ := @markActive_markStale at_ buildId tables.builds
  have free : ¬ ∃ chunk ∈ later.rows, chunk.buildId ∈ staleIds tables.builds at_ buildId ∧
      ∃ embedding ∈ (tables.embeddings.delete
        (·.buildId ∈ staleIds tables.builds at_ buildId)).rows, embedding.chunk = chunk.key := by
    rintro ⟨chunk, -, stale, embedding, stays, same⟩
    refine (Keyed.mem_delete.mp stays).2 ?_
    have alike : embedding.buildId = chunk.buildId := congrArg (·.2.1) same
    exact alike ▸ stale
  refine ⟨{ tables with
    builds := builds
    chunks := later.delete (·.buildId ∈ staleIds tables.builds at_ buildId)
    embeddings := tables.embeddings.delete (·.buildId ∈ staleIds tables.builds at_ buildId) },
    ?_, ?_⟩
  · simp only [activate, insertChunks, List.map_eq_nil_iff, some_, inserted, marked, deleteChunks,
      bind, Except.bind, ↓reduceIte, if_neg free]
  · refine ⟨rfl, settles, fun chunk member => ?_, fun chunk member stays => ?_,
      fun embedding member => Keyed.mem_delete.mp member⟩
    · rw [Keyed.mem_delete, insertEach_ok inserted, List.mem_append] at member
      exact member
    · rw [Keyed.mem_delete, insertEach_ok inserted, List.mem_append]
      exact ⟨.inl member, stays⟩

theorem activate_error (refused : chunks = [] ∨ ¬ (chunks.map (·.chunkId)).Nodup) :
    ∃ raised, activate tables at_ buildId checksum chunks = .error raised := by
  by_cases empty : chunks = []
  · simp [activate, insertChunks, empty, bind, Except.bind]
  · have repeated := refused.resolve_left empty
    rw [← @nodup_map_key_chunkRow at_ buildId checksum] at repeated
    obtain ⟨raised, taken⟩ := @insertEach_taken tables.chunks _ repeated
    simp [activate, insertChunks, empty, taken, bind, Except.bind]

theorem Activated.lawful {rows : List RetrievalChunkRow} {build : RetrievalIndexBuild}
    (activated : Activated tables after at_ buildId rows) (lawful : tables.Lawful)
    (located : Located tables at_) (member : build ∈ tables.builds.rows) (named : build.id = buildId)
    (inside : build.InScope at_) (own : ∀ row ∈ rows, row.buildId = buildId) : after.Lawful where
  owned := fun row here => by
    rw [activated.builds] at here
    obtain ⟨old, there, rfl⟩ := List.mem_map.mp here
    rw [activated.agreements, settled_agreementId, (settled_scope old).1, (settled_scope old).2]
    exact lawful.owned old there
  sources := by
    rw [activated.builds, map_map_of_keeps fun old _ => settled_source old]
    exact lawful.sources
  oneActive := fun one first two second active alike same => by
    rw [activated.builds] at first second
    obtain ⟨x, there, rfl⟩ := List.mem_map.mp first
    obtain ⟨y, here, rfl⟩ := List.mem_map.mp second
    rw [settled_agreementId, settled_agreementId] at same
    have foreign : ∀ other ∈ tables.builds.rows, ¬ other.InScope at_ →
        other.agreementId ≠ at_.agreementId := fun other held outside owns =>
      outside ((lawful.inScope_iff located held).mpr owns)
    have mine : ∀ other ∈ tables.builds.rows, other.id = buildId →
        other.agreementId = at_.agreementId := fun other held id =>
      (tables.builds.eq_of_key held member (id.trans named.symm)) ▸ inside.2.2
    rcases settled_active.mp active with idx | ⟨outx, activex⟩
    · rcases settled_active.mp alike with idy | ⟨outy, -⟩
      · rw [tables.builds.eq_of_key there here (idx.trans idy.symm)]
      · exact absurd (same.symm.trans (mine x there idx)) (foreign y here outy)
    · rcases settled_active.mp alike with idy | ⟨-, activey⟩
      · exact absurd (same.trans (mine y here idy)) (foreign x there outx)
      · rw [lawful.oneActive x there y here activex activey same]
  chunks := fun chunk here => by
    obtain ⟨stored, fresh⟩ := activated.chunks chunk here
    rw [activated.builds]
    rcases stored with old | new
    · obtain ⟨owner, there, id, active⟩ := lawful.chunks chunk old
      refine ⟨settled at_ buildId owner, List.mem_map_of_mem there, ?_, settled_active.mpr ?_⟩
      · rw [settled_id, id]
      · rw [← id, mem_staleIds there] at fresh
        by_cases target : owner.id = buildId
        · exact .inl target
        · exact .inr ⟨fun within => fresh ⟨within, active, target⟩, active⟩
    · refine ⟨settled at_ buildId build, List.mem_map_of_mem member, ?_, settled_active.mpr (.inl named)⟩
      rw [settled_id, named, own chunk new]
  embeddings := fun embedding here => by
    obtain ⟨old, fresh⟩ := activated.embeddings embedding here
    obtain ⟨chunk, stored, same⟩ := lawful.embeddings embedding old
    have alike : chunk.buildId = embedding.buildId := congrArg (·.2.1) same
    exact ⟨chunk, activated.kept chunk stored (alike ▸ fresh), same⟩

/-- In a lawful index an active build is the active builds of its agreement. -/
theorem IndexTables.Lawful.activeBuilds_eq (lawful : tables.Lawful) {build : RetrievalIndexBuild}
    (member : build ∈ tables.builds.rows) (active : build.state = .active) :
    activeBuilds tables build.agreementId = [build] := by
  have distinct : (activeBuilds tables build.agreementId).Nodup :=
    (tables.builds.distinct.of_map _).filter _
  refine List.perm_singleton.mp ((List.perm_ext_iff_of_nodup distinct (List.nodup_singleton _)).mpr
    fun other => ?_)
  simp only [activeBuilds, List.mem_filter, decide_eq_true_eq, List.mem_singleton]
  constructor
  · rintro ⟨there, same, alike⟩
    exact lawful.oneActive other there build member alike active same
  · rintro rfl
    exact ⟨member, rfl, active⟩

/-! A run of the sink -/

/-- The run of a source is refused: there is no active build of it, and its chunks are none or share
an id, or the id of the new build is taken. -/
def Blocked (tables : IndexTables φ) (at_ : IndexScope) (checksum : String)
    (chunks : List RetrievalChunk) (newId : Uuid) : Prop :=
  (∀ build, buildOf tables.builds at_ checksum = some build → build.state ≠ .active) ∧
    (chunks = [] ∨ ¬ (chunks.map (·.chunkId)).Nodup ∨
      (buildOf tables.builds at_ checksum = none ∧ ∃ other ∈ tables.builds.rows, other.id = newId))

theorem buildOf_eq_some {builds : Keyed RetrievalIndexBuild.id} {build : RetrievalIndexBuild}
    (found : buildOf builds at_ checksum = some build) : build ∈ builds.rows ∧ build.InScope at_ ∧
      build.sourceChecksum = checksum ∧ build.chunkerVersion = structureAwareChunkerVersion := by
  unfold buildOf at found
  have met := List.find?_some found
  rw [decide_eq_true_eq] at met
  exact ⟨List.mem_of_find?_eq_some found, met⟩

theorem deleteChunks_of_none {hit : RetrievalChunkRow → Prop} [DecidablePred hit]
    (none_ : ∀ chunk ∈ tables.chunks.rows, ¬ hit chunk) :
    deleteChunks tables hit = .ok tables := by
  have free : ¬ ∃ chunk ∈ tables.chunks.rows, hit chunk ∧
      ∃ embedding ∈ tables.embeddings.rows, embedding.chunk = chunk.key :=
    fun ⟨chunk, member, hits, _⟩ => none_ chunk member hits
  rw [deleteChunks, if_neg free, Keyed.delete_of_none none_]

/-- A lawful index takes a new build of a source that has none. -/
theorem insertBuild_ok (lawful : tables.Lawful) (located : Located tables at_)
    (absent : buildOf tables.builds at_ checksum = none)
    (fresh : ∀ other ∈ tables.builds.rows, other.id ≠ newId) :
    ∃ builds, insertBuild tables.builds at_ newId checksum = .ok builds ∧
      builds.rows = tables.builds.rows ++ [newBuild at_ newId checksum] ∧
      ({ tables with builds := builds } : IndexTables φ).Lawful := by
  have unknown : ∀ other ∈ tables.builds.rows,
      other.source ≠ (newBuild at_ newId checksum).source := by
    intro other member same
    have named : other.agreementId = at_.agreementId := congrArg (·.1) same
    have missing := List.find?_eq_none.mp absent other member
    simp only [decide_eq_true_eq] at missing
    exact missing ⟨(lawful.inScope_iff located member).mpr named, congrArg (·.2.1) same,
      congrArg (·.2.2) same⟩
  obtain ⟨builds, inserts, rows⟩ := @Keyed.insert_of_fresh _ _ _ tables.builds
    (newBuild at_ newId checksum) _ fresh
  have free : ¬ ∃ other ∈ tables.builds.rows, other.source = (newBuild at_ newId checksum).source :=
    fun ⟨other, member, same⟩ => unknown other member same
  have old : ∀ build ∈ builds.rows, build.state = .active → build ∈ tables.builds.rows := by
    intro build member active
    rw [rows, List.mem_append, List.mem_singleton] at member
    rcases member with member | rfl
    · exact member
    · cases active
  refine ⟨builds, ?_, rows, ?_⟩
  · simp only [insertBuild, if_neg free, inserts]
  · refine ⟨fun build member => ?_, ?_, fun one first two second active alike => ?_,
      fun chunk member => ?_, lawful.embeddings⟩
    · simp only [rows, List.mem_append, List.mem_singleton] at member
      rcases member with member | rfl
      · exact lawful.owned build member
      · exact located
    · simp only [rows]
      exact nodup_map_concat lawful.sources unknown
    · exact lawful.oneActive one (old one first active) two (old two second alike) active alike
    · obtain ⟨build, there, facts⟩ := lawful.chunks chunk member
      exact ⟨build, by simp [rows, there], facts⟩

/-- A run that is not refused makes the build of the source the active one; one that is raises. -/
theorem indexSource_outcome (lawful : tables.Lawful) (located : Located tables at_) :
    (Blocked tables at_ checksum chunks newId ∧
      ∃ raised, indexSource tables at_ checksum chunks newId = .error raised) ∨
    (¬ Blocked tables at_ checksum chunks newId ∧
      ∃ after, indexSource tables at_ checksum chunks newId = .ok after ∧ after.Lawful ∧
        after.agreements = tables.agreements ∧ ∃ build ∈ after.builds.rows,
          build.agreementId = at_.agreementId ∧ build.state = .active ∧
          build.sourceChecksum = checksum) := by
  cases found : buildOf tables.builds at_ checksum with
  | some build =>
      obtain ⟨member, inside, sourced, -⟩ := buildOf_eq_some found
      by_cases active : build.state = .active
      · refine .inr ⟨fun blocked => blocked.1 build found active, tables, ?_, lawful, rfl, build,
          member, inside.2.2, active, sourced⟩
        simp only [indexSource, found, if_pos active]
      · have bare : ∀ chunk ∈ tables.chunks.rows, chunk.buildId ≠ build.id := by
          intro chunk stored same
          obtain ⟨owner, there, id, lives⟩ := lawful.chunks chunk stored
          rw [tables.builds.eq_of_key there member (id.trans same)] at lives
          exact active lives
        have other : ∀ row, buildOf tables.builds at_ checksum = some row → row.state ≠ .active := by
          intro row same
          rw [found, Option.some.injEq] at same
          exact same ▸ active
        simp only [indexSource, found, if_neg active, deleteChunks_of_none bare]
        by_cases refused : chunks = [] ∨ ¬ (chunks.map (·.chunkId)).Nodup
        · refine .inl ⟨⟨other, refused.imp_right .inl⟩, ?_⟩
          exact activate_error refused
        · push Not at refused
          obtain ⟨after, done, activated⟩ := @activate_ok _ tables at_ build.id checksum chunks
            refused.1 refused.2 bare
          refine .inr ⟨?_, after, done, ?_, activated.agreements, ?_⟩
          · rintro ⟨-, empty | repeated | ⟨absent, -⟩⟩
            · exact refused.1 empty
            · exact repeated refused.2
            · rw [found] at absent
              cases absent
          · refine activated.lawful lawful located member rfl inside fun row new => ?_
            obtain ⟨chunk, -, rfl⟩ := List.mem_map.mp new
            rfl
          · refine ⟨settled at_ build.id build, activated.builds ▸ List.mem_map_of_mem member, ?_⟩
            rw [settled_agreementId]
            exact ⟨inside.2.2, settled_active.mpr (.inl rfl), by simp [settled, sourced]⟩
  | none =>
      have other : ∀ row, buildOf tables.builds at_ checksum = some row → row.state ≠ .active := by
        rw [found]
        nofun
      by_cases taken : ∃ other ∈ tables.builds.rows, other.id = newId
      · refine .inl ⟨⟨other, .inr (.inr ⟨found, taken⟩)⟩, .integrityError, ?_⟩
        obtain ⟨owner, member, same⟩ := taken
        have refused : insertBuild tables.builds at_ newId checksum = .error .integrityError := by
          simp only [insertBuild]
          rw [@Keyed.insert_eq_none _ _ _ tables.builds (newBuild at_ newId checksum) owner _ member
            same]
          split <;> rfl
        simp only [indexSource, found, refused, bind, Except.bind]
      · push Not at taken
        obtain ⟨builds, inserted, rows, lawful'⟩ := insertBuild_ok lawful located found taken
        have bare : ∀ chunk ∈ tables.chunks.rows, chunk.buildId ≠ newId := by
          intro chunk stored same
          obtain ⟨owner, there, id, -⟩ := lawful.chunks chunk stored
          exact taken owner there (id.trans same)
        simp only [indexSource, found, inserted, bind, Except.bind]
        by_cases refused : chunks = [] ∨ ¬ (chunks.map (·.chunkId)).Nodup
        · refine .inl ⟨⟨other, refused.imp_right .inl⟩, ?_⟩
          exact activate_error refused
        · push Not at refused
          obtain ⟨after, done, activated⟩ := @activate_ok _ { tables with builds := builds } at_ newId
            checksum chunks refused.1 refused.2 bare
          have member : newBuild at_ newId checksum ∈ builds.rows := by simp [rows]
          refine .inr ⟨?_, after, done, ?_, activated.agreements, ?_⟩
          · rintro ⟨-, empty | repeated | ⟨-, owner, there, same⟩⟩
            · exact refused.1 empty
            · exact repeated refused.2
            · exact taken owner there same
          · refine activated.lawful lawful' located member rfl ⟨rfl, rfl, rfl⟩ fun row new => ?_
            obtain ⟨chunk, -, rfl⟩ := List.mem_map.mp new
            rfl
          · refine ⟨settled at_ newId _, activated.builds ▸ List.mem_map_of_mem member, ?_⟩
            rw [settled_agreementId]
            exact ⟨rfl, settled_active.mpr (.inl rfl), by simp [settled, newBuild]⟩

end AgreementIntelligence.Indexing
