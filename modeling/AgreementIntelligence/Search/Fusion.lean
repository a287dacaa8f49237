import AgreementIntelligence.Identity
import AgreementIntelligence.Lib.Dict
import AgreementIntelligence.Lib.Queries
import Mathlib.Algebra.Order.Ring.Rat
import Mathlib.Data.Prod.Lex
import Mathlib.Data.String.Basic

/-! Reciprocal rank fusion of the lexical and the semantic candidates of a search. Scores are
exact rationals, and ranks count from one. -/

namespace AgreementIntelligence.Search
open Identity Lib Lib.Queries

def rrfK : ℕ := 60

def maxCandidatesPerChannel : ℕ := 50

structure RankedChunk where
  chunkId : String
  agreementId : Uuid
  agreementTitle : String
  agreementType : String
  agreementStatus : String
  sourceChecksum : String
  chunkerVersion : String
  buildId : Uuid
  anchorIds : List String
  content : String
  embeddingIndexVersion : Option String
  deriving DecidableEq, Repr

abbrev ChunkKey := Uuid × Uuid × String

def RankedChunk.key (chunk : RankedChunk) : ChunkKey :=
  (chunk.agreementId, chunk.buildId, chunk.chunkId)

structure FusedChunk where
  chunk : RankedChunk
  lexicalRank : Option ℕ
  semanticRank : Option ℕ
  fusedScore : ℚ
  deriving DecidableEq, Repr

inductive Channel where
  | lexical
  | semantic
  deriving DecidableEq, Repr

/-- What the loop stores for a chunk of a channel over the entry that was there. -/
def fuseRanked (channel : Channel) (prior : Option FusedChunk) (ranked : RankedChunk × ℕ) :
    FusedChunk where
  chunk := ranked.1
  lexicalRank := if channel = .lexical then some ranked.2 else prior.bind (·.lexicalRank)
  semanticRank := if channel = .semantic then some ranked.2 else prior.bind (·.semanticRank)
  fusedScore := prior.elim 0 (·.fusedScore) + 1 / (rrfK + ranked.2 : ℕ)

/-- The pass over the candidates of a channel, `enumerate(candidates, start=1)`. -/
def fuseChannel (fused : List (ChunkKey × FusedChunk)) (channel : Channel)
    (candidates : List RankedChunk) : List (ChunkKey × FusedChunk) :=
  Dict.update (·.1.key) (fuseRanked channel) fused (candidates.zipIdx 1)

abbrev SortKey := ℚ ×ₗ ℕ ×ₗ ℕ ×ₗ String ×ₗ String

def FusedChunk.sortKey (item : FusedChunk) : SortKey :=
  toLex (-item.fusedScore,
    toLex (item.lexicalRank.getD (maxCandidatesPerChannel + 1),
      toLex (item.semanticRank.getD (maxCandidatesPerChannel + 1),
        toLex (item.chunk.agreementId.str, item.chunk.chunkId))))

def fusedChunks (lexical semantic : List RankedChunk) : List (ChunkKey × FusedChunk) :=
  fuseChannel (fuseChannel [] .lexical lexical) .semantic semantic

def fuseReciprocalRank (lexical semantic : List RankedChunk) (limit : ℕ) : List FusedChunk :=
  (orderBy FusedChunk.sortKey ((fusedChunks lexical semantic).map Prod.snd)).take limit

/-! What a channel says about a chunk -/

/-- The place of a chunk among the candidates of a channel, counted from one. -/
def rankOf (candidates : List RankedChunk) (key : ChunkKey) : Option ℕ :=
  (candidates.findIdx? fun chunk => chunk.key = key).map (· + 1)

/-- What a channel adds to the score of a chunk. -/
def contribution (rank : Option ℕ) : ℚ :=
  rank.elim 0 fun place => 1 / (rrfK + place : ℕ)

theorem map_fst_find?_zipIdx {α : Type} (p : α → Bool) (items : List α) (start : ℕ) :
    ((items.zipIdx start).find? fun ranked => p ranked.1).map Prod.fst = items.find? p := by
  induction items generalizing start with
  | nil => rfl
  | cons item rest ih =>
      cases here : p item with
      | true => simp [here]
      | false => simpa [here] using ih (start + 1)

theorem map_snd_find?_zipIdx {α : Type} (p : α → Bool) (items : List α) (start : ℕ) :
    ((items.zipIdx start).find? fun ranked => p ranked.1).map Prod.snd =
      (items.findIdx? p).map (· + start) := by
  induction items generalizing start with
  | nil => rfl
  | cons item rest ih =>
      rw [List.zipIdx_cons, List.findIdx?_cons]
      cases here : p item with
      | true => simp [here]
      | false =>
          have later := ih (start + 1)
          have counts : (fun place => place + start) ∘ (fun place => place + 1) =
              fun place => place + (start + 1) := by
            funext place
            simp only [Function.comp_apply]
            omega
          simp only [List.find?_cons, here, later, Bool.false_eq_true, if_false, Option.map_map,
            counts]

/-- What fusion stores for a chunk: the record of the last channel that found it, both of its
ranks, and what both channels add to its score. -/
def fusedOf (lexical semantic : List RankedChunk) (key : ChunkKey) : Option FusedChunk :=
  let found (candidates : List RankedChunk) := candidates.find? fun chunk => chunk.key = key
  ((found semantic).or (found lexical)).map fun chunk =>
    { chunk := chunk
      lexicalRank := rankOf lexical key
      semanticRank := rankOf semantic key
      fusedScore := contribution (rankOf lexical key) + contribution (rankOf semantic key) }

section Lists
variable {lexical semantic : List RankedChunk} (lexicalOnce : (lexical.map (·.key)).Nodup)
  (semanticOnce : (semantic.map (·.key)).Nodup)

theorem nodup_ranked {candidates : List RankedChunk} (once : (candidates.map (·.key)).Nodup) :
    ((candidates.zipIdx 1).map fun ranked => ranked.1.key).Nodup := by
  have same : (candidates.zipIdx 1).map (fun ranked => ranked.1.key) =
      ((candidates.zipIdx 1).map Prod.fst).map (·.key) := by rw [List.map_map]; rfl
  rw [same, List.zipIdx_map_fst]
  exact once

include lexicalOnce semanticOnce in
theorem get?_fusedChunks (key : ChunkKey) :
    Dict.get? (fusedChunks lexical semantic) key = fusedOf lexical semantic key := by
  have chunks (candidates : List RankedChunk) :=
    map_fst_find?_zipIdx (fun chunk => decide (chunk.key = key)) candidates 1
  have ranks (candidates : List RankedChunk) :=
    map_snd_find?_zipIdx (fun chunk => decide (chunk.key = key)) candidates 1
  rw [fusedChunks, fuseChannel, fuseChannel, Dict.get?_update _ _ (nodup_ranked semanticOnce),
    Dict.get?_update _ _ (nodup_ranked lexicalOnce), Dict.get?_nil, Option.or_none]
  simp only [fusedOf, rankOf, ← chunks, ← ranks]
  cases (lexical.zipIdx 1).find? fun ranked => decide (ranked.1.key = key) <;>
    cases (semantic.zipIdx 1).find? fun ranked => decide (ranked.1.key = key) <;>
    simp [fuseRanked, contribution]

end Lists

theorem nodup_keys_fusedChunks (lexical semantic : List RankedChunk) :
    ((fusedChunks lexical semantic).map Prod.fst).Nodup := by
  apply Dict.nodup_keys_update
  apply Dict.nodup_keys_update
  simp

theorem fusedOf_key {lexical semantic : List RankedChunk} {key : ChunkKey} {item : FusedChunk}
    (found : fusedOf lexical semantic key = some item) : item.chunk.key = key := by
  obtain ⟨chunk, here, rfl⟩ := Option.map_eq_some_iff.mp found
  rcases Option.or_eq_some_iff.mp here with here | ⟨-, here⟩ <;> simpa using List.find?_some here

theorem fusedOf_isSome {lexical semantic : List RankedChunk} {key : ChunkKey} :
    (fusedOf lexical semantic key).isSome ↔
      key ∈ lexical.map (·.key) ∨ key ∈ semantic.map (·.key) := by
  simp [fusedOf, or_comm]

/-! The ranking -/

/-- What fusion makes of two channels: every chunk of either channel once, with its true ranks and
the score that they give, in the order of the sort key. -/
structure Fuses (lexical semantic : List RankedChunk) (ranking : List FusedChunk) : Prop where
  once : (ranking.map (·.chunk.key)).Nodup
  union : ∀ key, key ∈ ranking.map (·.chunk.key) ↔
    key ∈ lexical.map (·.key) ∨ key ∈ semantic.map (·.key)
  chunk : ∀ item ∈ ranking, item.chunk ∈ lexical ∨ item.chunk ∈ semantic
  lexicalRank : ∀ item ∈ ranking, item.lexicalRank = rankOf lexical item.chunk.key
  semanticRank : ∀ item ∈ ranking, item.semanticRank = rankOf semantic item.chunk.key
  score : ∀ item ∈ ranking,
    item.fusedScore = contribution item.lexicalRank + contribution item.semanticRank
  ordered : ranking.Pairwise fun before after => before.sortKey ≤ after.sortKey

def ranking (lexical semantic : List RankedChunk) : List FusedChunk :=
  orderBy FusedChunk.sortKey ((fusedChunks lexical semantic).map Prod.snd)

section Ranking
variable {lexical semantic : List RankedChunk} (lexicalOnce : (lexical.map (·.key)).Nodup)
  (semanticOnce : (semantic.map (·.key)).Nodup)
include lexicalOnce semanticOnce

theorem mem_fusedChunks {key : ChunkKey} {item : FusedChunk} :
    (key, item) ∈ fusedChunks lexical semantic ↔ fusedOf lexical semantic key = some item := by
  rw [← Dict.get?_eq_some_iff (nodup_keys_fusedChunks lexical semantic),
    get?_fusedChunks lexicalOnce semanticOnce]

theorem mem_ranking {item : FusedChunk} : item ∈ ranking lexical semantic ↔
    fusedOf lexical semantic item.chunk.key = some item := by
  rw [ranking, mem_orderBy, List.mem_map]
  constructor
  · rintro ⟨⟨key, stored⟩, member, rfl⟩
    have found := (mem_fusedChunks lexicalOnce semanticOnce).mp member
    rw [fusedOf_key found]
    exact found
  · exact fun found => ⟨_, (mem_fusedChunks lexicalOnce semanticOnce).mpr found, rfl⟩

theorem keys_ranking :
    ((ranking lexical semantic).map (·.chunk.key)).Perm
      ((fusedChunks lexical semantic).map Prod.fst) := by
  refine ((perm_orderBy FusedChunk.sortKey _).map _).trans (List.Perm.of_eq ?_)
  rw [List.map_map]
  refine List.map_congr_left fun entry member => ?_
  exact fusedOf_key ((mem_fusedChunks lexicalOnce semanticOnce).mp member)

theorem ranking_fuses : Fuses lexical semantic (ranking lexical semantic) := by
  have found {item} (member : item ∈ ranking lexical semantic) :=
    (mem_ranking lexicalOnce semanticOnce).mp member
  have record {item : FusedChunk} (member : item ∈ ranking lexical semantic) :=
    Option.map_eq_some_iff.mp (found member)
  refine
    { once := ?_, union := fun key => ?_, chunk := ?_, lexicalRank := ?_, semanticRank := ?_,
      score := ?_, ordered := pairwise_orderBy _ _ }
  · exact (keys_ranking lexicalOnce semanticOnce).nodup_iff.mpr (nodup_keys_fusedChunks _ _)
  · rw [(keys_ranking lexicalOnce semanticOnce).mem_iff, ← fusedOf_isSome,
      ← get?_fusedChunks lexicalOnce semanticOnce]
    constructor
    · intro member
      obtain ⟨entry, there, rfl⟩ := List.mem_map.mp member
      exact Dict.get?_isSome_of_mem there
    · intro some_
      obtain ⟨item, here⟩ := Option.isSome_iff_exists.mp some_
      exact List.mem_map.mpr ⟨_, Dict.mem_of_get? here, rfl⟩
  · intro item member
    obtain ⟨chunk, here, same⟩ := record member
    rw [← same]
    rcases Option.or_eq_some_iff.mp here with here | ⟨-, here⟩
    · exact .inr (List.mem_of_find?_eq_some here)
    · exact .inl (List.mem_of_find?_eq_some here)
  · intro item member
    obtain ⟨chunk, -, same⟩ := record member
    exact (congrArg FusedChunk.lexicalRank same).symm
  · intro item member
    obtain ⟨chunk, -, same⟩ := record member
    exact (congrArg FusedChunk.semanticRank same).symm
  · intro item member
    obtain ⟨chunk, -, same⟩ := record member
    rw [← congrArg FusedChunk.lexicalRank same, ← congrArg FusedChunk.semanticRank same]
    exact (congrArg FusedChunk.fusedScore same).symm

/-- For every limit, fusion returns that many items from the front of one ranking; so what a smaller
limit returns stands at the front of what a larger one returns. -/
theorem fuseReciprocalRank_fuses : ∃ items : List FusedChunk, Fuses lexical semantic items ∧
    (∀ limit, fuseReciprocalRank lexical semantic limit = items.take limit) ∧
    ∀ smaller larger, smaller ≤ larger →
      fuseReciprocalRank lexical semantic smaller <+:
        fuseReciprocalRank lexical semantic larger := by
  refine ⟨ranking lexical semantic, ranking_fuses lexicalOnce semanticOnce, fun _ => rfl, ?_⟩
  intro smaller larger below
  exact List.take_prefix_take_left below

end Ranking

/-- A chunk of an agreement, by the numbers of the two. -/
def numberedChunk (agreement : ℕ) (chunkId : String) : RankedChunk where
  chunkId := chunkId
  agreementId := Uuid.ofNat agreement
  agreementTitle := "Master services agreement"
  agreementType := "msa"
  agreementStatus := "active"
  sourceChecksum := "checksum"
  chunkerVersion := "structure-aware.v1"
  buildId := Uuid.ofNat (agreement + 100)
  anchorIds := ["block-1"]
  content := "Fees are due."
  embeddingIndexVersion := none

theorem fuseReciprocalRank_fuses_overlap :
    let lexical := [numberedChunk 1 "a", numberedChunk 1 "b"]
    let semantic := [numberedChunk 1 "b", numberedChunk 2 "a"]
    ∃ items : List FusedChunk, Fuses lexical semantic items ∧
      (∀ limit, fuseReciprocalRank lexical semantic limit = items.take limit) ∧
      ∀ smaller larger, smaller ≤ larger →
        fuseReciprocalRank lexical semantic smaller <+:
          fuseReciprocalRank lexical semantic larger :=
  fuseReciprocalRank_fuses (by decide +kernel) (by decide +kernel)

example : (fuseReciprocalRank [numberedChunk 1 "a", numberedChunk 1 "b"]
    [numberedChunk 1 "b", numberedChunk 2 "a"] 2).map (fun item =>
      (item.chunk.chunkId, item.lexicalRank, item.semanticRank)) =
    [("b", some 2, some 1), ("a", some 1, none)] := by decide +kernel

end AgreementIntelligence.Search
