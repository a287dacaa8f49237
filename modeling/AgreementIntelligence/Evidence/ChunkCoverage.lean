import AgreementIntelligence.Evidence.Sections
import AgreementIntelligence.Lib.JsonQuotes
import AgreementIntelligence.Lib.Windows

/-! Chunking loses nothing: a section that fits one chunk is one, a longer one is cut into windows
that overlap and cover all of its tokens, and what is hashed for the chunks of a document with
distinct anchors is pairwise distinct. -/

namespace AgreementIntelligence.Evidence
open Lib.Text Lib.Words Lib.Json Lib.Sha256 Lib.Results Lib.Windows

/-! The windows of a group -/

/-- The windows that are still to come when the loop has read `done` and collects the window that
starts at token `900 * k`. -/
theorem windows_eq {done rest : List (String × List Char)} {k : ℕ} (some_ : done ≠ [])
    (starts : k = 0 ∨ 900 * k + 100 < done.length) (fits : done.length ≤ 900 * k + 1000) :
    windows (done.drop (900 * k)) (900 * k) rest =
      (List.range' k (count 1000 900 (done ++ rest).length - k)).map fun j =>
        (slice 1000 900 (done ++ rest) j, 900 * j) := by
  induction rest generalizing done k with
  | nil =>
      have positive := List.length_pos_iff.mpr some_
      have collects : done.drop (900 * k) ≠ [] := by
        rw [ne_eq, List.drop_eq_nil_iff]
        omega
      have last : count 1000 900 done.length - k = 1 := by
        rw [count]
        omega
      have all : (done.drop (900 * k)).take 1000 = done.drop (900 * k) := by
        rw [List.take_of_length_le]
        rw [List.length_drop]
        omega
      rw [windows, if_neg collects, List.append_nil, last, List.range'_one, List.map_singleton,
        slice, all]
  | cons token rest ih =>
      have whole : done ++ token :: rest = done ++ [token] ++ rest := by simp
      rw [windows]
      by_cases full : done.length = 900 * k + 1000
      · have size : (done.drop (900 * k)).length = maxChunkTokens := by
          rw [List.length_drop, maxChunkTokens]
          omega
        have collects : done.drop (900 * k) ≠ [] := by
          rw [← List.length_pos_iff, size]
          decide
        have overlap : (done.drop (900 * k)).drop
            ((done.drop (900 * k)).length - chunkOverlapTokens) ++ [token] =
              (done ++ [token]).drop (900 * (k + 1)) := by
          rw [size, List.drop_drop, List.drop_append_of_le_length (by omega)]
          rfl
        have moved : 900 * k + (maxChunkTokens - ((done.drop (900 * k)).drop
            ((done.drop (900 * k)).length - chunkOverlapTokens)).length) = 900 * (k + 1) := by
          rw [List.length_drop, size, maxChunkTokens, chunkOverlapTokens]
          omega
        have more : count 1000 900 (done ++ token :: rest).length - k =
            count 1000 900 (done ++ [token] ++ rest).length - (k + 1) + 1 := by
          rw [← whole, count, List.length_append, List.length_cons]
          omega
        have here : slice 1000 900 (done ++ token :: rest) k = done.drop (900 * k) := by
          rw [slice, List.drop_append_of_le_length (by omega)]
          exact List.take_left' size
        rw [if_pos ⟨collects, size⟩]
        dsimp only
        rw [overlap, moved, more, List.range'_succ, List.map_cons, here, whole]
        refine congrArg _ (ih (by simp) (.inr ?_) ?_)
        · rw [List.length_append, List.length_singleton]
          omega
        · rw [List.length_append, List.length_singleton]
          omega
      · have size : (done.drop (900 * k)).length ≠ maxChunkTokens := by
          rw [List.length_drop, maxChunkTokens]
          omega
        have grows : done.drop (900 * k) ++ [token] = (done ++ [token]).drop (900 * k) := by
          rw [List.drop_append_of_le_length (by omega)]
        rw [if_neg fun both => size both.2, grows, whole]
        refine ih (by simp) (starts.imp_right fun behind => ?_) ?_
        · rw [List.length_append]
          omega
        · rw [List.length_append, List.length_singleton]
          omega

/-- The loop cuts tokens into all of their windows. -/
theorem windows_tokens {tokens : List (String × List Char)} (some_ : tokens ≠ []) :
    windows [] 0 tokens = (List.range (count 1000 900 tokens.length)).map fun j =>
      (slice 1000 900 tokens j, 900 * j) := by
  cases tokens with
  | nil => exact absurd rfl some_
  | cons token rest =>
      have first := @windows_eq [token] rest 0 (by simp) (.inl rfl) (by simp)
      rw [windows, if_neg fun both => both.1 rfl, List.range_eq_range']
      exact first

/-! The tokens of a group -/

theorem words_groupText (entries : List (String × String)) :
    words ("\n".intercalate (entries.map (·.2))).toList = (groupTokens entries).map (·.2) := by
  induction entries with
  | nil => rfl
  | cons first rest ih =>
      have here : ((words first.2.toList).map fun token => (first.1, token)).map (·.2) =
          words first.2.toList := by simp
      rw [groupTokens, List.flatMap_cons, ← groupTokens, List.map_append, here, ← ih]
      cases rest with
      | nil => simp
      | cons next later =>
          rw [List.map_cons, List.map_cons, String.intercalate_cons_cons, ← List.map_cons,
            String.toList_append, String.toList_append, List.append_assoc]
          exact words_append_cons first.2.toList _ (c := '\n') (by decide)

theorem length_groupText (entries : List (String × String)) :
    (words ("\n".intercalate (entries.map (·.2))).toList).length =
      (groupTokens entries).length := by
  rw [words_groupText, List.length_map]

theorem mem_groupTokens {entries : List (String × String)} {token : String × List Char}
    (member : token ∈ groupTokens entries) : token.1 ∈ entries.map (·.1) ∧
      token.2 ≠ [] ∧ ∀ c ∈ token.2, isWhitespace c = false := by
  obtain ⟨entry, listed, here⟩ := List.mem_flatMap.mp member
  obtain ⟨word, spoken, rfl⟩ := List.mem_map.mp here
  exact ⟨List.mem_map.mpr ⟨entry, listed, rfl⟩, mem_words spoken⟩

theorem mem_slice {entries : List (String × String)} {k : ℕ} {token : String × List Char}
    (member : token ∈ slice 1000 900 (groupTokens entries) k) : token ∈ groupTokens entries :=
  List.mem_of_mem_drop (List.mem_of_mem_take member)

/-- The words of the text of a window are its tokens. -/
theorem words_chunkFromTokens (checksum : String) (path : List String)
    {entries : List (String × String)} (k ordinal start : ℕ) :
    words (chunkFromTokens checksum path (slice 1000 900 (groupTokens entries) k) ordinal
      start).text.toList = (slice 1000 900 (groupTokens entries) k).map (·.2) := by
  have joined := @words_joined ((slice 1000 900 (groupTokens entries) k).map (·.2)) (by
    intro part member
    obtain ⟨token, inside, rfl⟩ := List.mem_map.mp member
    exact (mem_groupTokens (mem_slice inside)).2)
  rw [List.map_map] at joined
  exact joined

/-! The chunks of a group -/

section Group
variable (checksum : String) (path : List String) {entries : List (String × String)}
  (ordinal : ℕ)

theorem chunksForGroup_short (fits : (groupTokens entries).length ≤ 1000) :
    chunksForGroup checksum path entries ordinal =
      [{ chunkId := chunkId checksum (entries.map (·.1)) 0
         ordinal := ordinal
         headingPath := path
         anchorIds := entries.map (·.1)
         text := "\n".intercalate (entries.map (·.2)) }] := by
  rw [← length_groupText] at fits
  exact if_pos fits

theorem zipIdx_map_range {α : Type} (f : ℕ → α) (n : ℕ) :
    ((List.range n).map f).zipIdx = (List.range n).map fun k => (f k, k) := by
  apply List.ext_getElem
  · simp
  · intro k inside other
    simp

theorem chunksForGroup_long (exceeds : 1000 < (groupTokens entries).length) :
    chunksForGroup checksum path entries ordinal =
      (List.range (count 1000 900 (groupTokens entries).length)).map fun k =>
        chunkFromTokens checksum path (slice 1000 900 (groupTokens entries) k) (ordinal + k)
          (900 * k) := by
  have some_ : groupTokens entries ≠ [] := by
    rw [← List.length_pos_iff]
    omega
  have long : ¬ (words ("\n".intercalate (entries.map (·.2))).toList).length ≤ maxChunkTokens := by
    rw [length_groupText, maxChunkTokens]
    omega
  dsimp only [chunksForGroup]
  rw [if_neg long, windows_tokens some_, zipIdx_map_range, List.map_map]
  rfl

end Group

/-- Chunks that are the windows of the tokens of a group: all of them full but the last, which ends
with the tokens. -/
structure Windowed (tokens : List (String × List Char)) (chunks : List RetrievalChunk) : Prop where
  cut : ∀ k chunk, chunks[k]? = some chunk →
    words chunk.text.toList = (slice 1000 900 tokens k).map (·.2) ∧
      chunk.anchorIds = ((slice 1000 900 tokens k).map (·.1)).eraseDups
  full : ∀ k chunk, chunks[k]? = some chunk → k + 1 < chunks.length →
    (words chunk.text.toList).length = 1000
  last : ∀ k chunk, chunks[k]? = some chunk → k + 1 = chunks.length →
    words chunk.text.toList = (tokens.drop (900 * k)).map (·.2) ∧
      (words chunk.text.toList).length ≤ 1000
  covered : ∀ place token, tokens[place]? = some token → ∃ k chunk inside,
    chunks[k]? = some chunk ∧ place = 900 * k + inside ∧
      (words chunk.text.toList)[inside]? = some token.2
  overlap : ∀ k first second, chunks[k]? = some first → chunks[k + 1]? = some second →
    (words first.text.toList).drop 900 = (words second.text.toList).take 100 ∧
      ((words second.text.toList).take 100).length = 100

/-- What the chunks of a group keep of it. -/
structure GroupCovered (group : Group) (chunks : List RetrievalChunk) : Prop where
  path : ∀ chunk ∈ chunks, chunk.headingPath = group.1
  short : (groupTokens group.2).length ≤ 1000 → ∃ chunk, chunks = [chunk] ∧
    chunk.text = "\n".intercalate (group.2.map (·.2)) ∧ chunk.anchorIds = group.2.map (·.1)
  long : 1000 < (groupTokens group.2).length → Windowed (groupTokens group.2) chunks

section Group
variable (checksum : String) (path : List String) {entries : List (String × String)}
  (ordinal : ℕ)

/-- The chunk of a window. -/
theorem getElem?_long {k : ℕ} {chunk : RetrievalChunk}
    (exceeds : 1000 < (groupTokens entries).length)
    (here : (chunksForGroup checksum path entries ordinal)[k]? = some chunk) :
    k < count 1000 900 (groupTokens entries).length ∧
      chunk = chunkFromTokens checksum path (slice 1000 900 (groupTokens entries) k) (ordinal + k)
        (900 * k) := by
  rw [chunksForGroup_long checksum path ordinal exceeds, List.getElem?_map,
    Option.map_eq_some_iff] at here
  obtain ⟨place, there, rfl⟩ := here
  obtain ⟨bound, rfl⟩ := List.getElem?_eq_some_iff.mp there
  rw [List.length_range] at bound
  rw [List.getElem_range]
  exact ⟨bound, rfl⟩

theorem length_long (exceeds : 1000 < (groupTokens entries).length) :
    (chunksForGroup checksum path entries ordinal).length =
      count 1000 900 (groupTokens entries).length := by
  rw [chunksForGroup_long checksum path ordinal exceeds, List.length_map, List.length_range]

theorem chunksForGroup_windowed (exceeds : 1000 < (groupTokens entries).length) :
    Windowed (groupTokens entries) (chunksForGroup checksum path entries ordinal) := by
  have text {k : ℕ} {chunk : RetrievalChunk}
      (here : (chunksForGroup checksum path entries ordinal)[k]? = some chunk) :
      words chunk.text.toList = (slice 1000 900 (groupTokens entries) k).map (·.2) := by
    rw [(getElem?_long checksum path ordinal exceeds here).2, words_chunkFromTokens]
  have lengths := length_long checksum path ordinal exceeds
  have fills {k : ℕ} {chunk : RetrievalChunk}
      (here : (chunksForGroup checksum path entries ordinal)[k]? = some chunk)
      (next : k + 1 < (chunksForGroup checksum path entries ordinal).length) :
      (words chunk.text.toList).length = 1000 := by
    rw [text here, List.length_map]
    exact length_slice_of_next (by decide) (by decide) (lengths ▸ next)
  refine
    { cut := fun k chunk here => ⟨text here, ?_⟩
      full := fun k chunk here next => fills here next
      last := fun k chunk here ends => ?_
      covered := fun place token there => ?_
      overlap := fun k first second here next => ?_ }
  · rw [(getElem?_long checksum path ordinal exceeds here).2]
    rfl
  · have reaches := @slice_last _ 1000 900 (groupTokens entries) (by decide) (by decide) k
      (ends.trans lengths)
    rw [text here]
    refine ⟨by rw [reaches], ?_⟩
    rw [List.length_map, length_slice]
    exact Nat.min_le_left 1000 _
  · obtain ⟨inside, -⟩ := List.getElem?_eq_some_iff.mp there
    obtain ⟨k, bound, starts, ends⟩ :=
      @exists_slice _ 1000 900 _ (by decide) (by decide) _ inside
    have listed : k < (chunksForGroup checksum path entries ordinal).length := lengths ▸ bound
    refine ⟨k, _, place - 900 * k, List.getElem?_eq_getElem listed, by omega, ?_⟩
    rw [text (List.getElem?_eq_getElem listed), List.getElem?_map, getElem?_slice (by omega),
      Nat.add_sub_cancel' starts, there]
    rfl
  · have listed := (List.getElem?_eq_some_iff.mp next).1
    have same : (words first.text.toList).drop 900 = (words second.text.toList).take 100 := by
      rw [text here, text next, ← List.map_drop, ← List.map_take, slice_overlap]
    refine ⟨same, ?_⟩
    rw [← same, List.length_drop, fills here listed]

theorem chunksForGroup_covered (group : Group) :
    GroupCovered group (chunksForGroup checksum group.1 group.2 ordinal) := by
  refine
    { path := fun chunk member => ?_
      short := fun fits => ?_
      long := fun exceeds => chunksForGroup_windowed checksum group.1 ordinal exceeds }
  · by_cases fits : (groupTokens group.2).length ≤ 1000
    · rw [chunksForGroup_short checksum group.1 ordinal fits, List.mem_singleton] at member
      rw [member]
    · rw [chunksForGroup_long checksum group.1 ordinal (by omega), List.mem_map] at member
      obtain ⟨k, -, rfl⟩ := member
      rfl
  · exact ⟨_, chunksForGroup_short checksum group.1 ordinal fits, rfl, rfl⟩

theorem ordinals_chunksForGroup (group : Group) :
    (chunksForGroup checksum group.1 group.2 ordinal).map (·.ordinal) =
      List.range' ordinal (chunksForGroup checksum group.1 group.2 ordinal).length := by
  by_cases fits : (groupTokens group.2).length ≤ 1000
  · rw [chunksForGroup_short checksum group.1 ordinal fits]
    rfl
  · rw [length_long checksum group.1 ordinal (by omega),
      chunksForGroup_long checksum group.1 ordinal (by omega), List.map_map,
      List.range'_eq_map_range]
    rfl

end Group

/-! The chunks of a document -/

/-- The chunks of each group, counted from an ordinal on. -/
def cuts (checksum : String) (ordinal : ℕ) : List Group → List (List RetrievalChunk)
  | [] => []
  | group :: rest =>
    chunksForGroup checksum group.1 group.2 ordinal ::
      cuts checksum (ordinal + (chunksForGroup checksum group.1 group.2 ordinal).length) rest

section Document
variable (checksum : String) (groups : List Group)

theorem chunksForGroups_eq (chunks : List RetrievalChunk) :
    chunksForGroups checksum chunks groups =
      chunks ++ (cuts checksum chunks.length groups).flatten := by
  induction groups generalizing chunks with
  | nil => simp [chunksForGroups, cuts]
  | cons group rest ih =>
      rw [chunksForGroups, ih, cuts, List.flatten_cons, List.length_append, List.append_assoc]

theorem cuts_covered (ordinal : ℕ) :
    List.Forall₂ GroupCovered groups (cuts checksum ordinal groups) := by
  induction groups generalizing ordinal with
  | nil => exact .nil
  | cons group rest ih => exact .cons (chunksForGroup_covered checksum ordinal group) (ih _)

theorem ordinals_cuts (ordinal : ℕ) :
    (cuts checksum ordinal groups).flatten.map (·.ordinal) =
      List.range' ordinal (cuts checksum ordinal groups).flatten.length := by
  induction groups generalizing ordinal with
  | nil => rfl
  | cons group rest ih =>
      rw [cuts, List.flatten_cons, List.map_append, ordinals_chunksForGroup, ih, List.length_append,
        List.range'_append_1]

end Document

/-! What is hashed -/

/-- The text that the identifier of a chunk is made of. -/
def chunkPayload (checksum : String) (key : List String × ℕ) : String :=
  dumps (φ := Empty) nofun (.object
    [("anchor_ids", .array (key.1.map .string)),
      ("chunker_version", .string structureAwareChunkerVersion),
      ("source_checksum", .string checksum), ("start_token", .int key.2)])

/-- The digits of a digest that an identifier keeps. -/
def digest (payload : String) : List Char :=
  (hexdigest (utf8 payload)).toList.take 32

theorem dumpsItems_strings (texts : List String) :
    dumpsItems (φ := Empty) nofun (texts.map .string) = texts.map quoteText := by
  induction texts with
  | nil => rfl
  | cons text rest ih => rw [List.map_cons, dumpsItems, dumps, ih, List.map_cons]

theorem toList_chunkPayload (checksum : String) (key : List String × ℕ) :
    (chunkPayload checksum key).toList =
      ("\x7b" ++ quoteText "anchor_ids" ++ ":[").toList ++
        ((",".intercalate (key.1.map quoteText)).toList ++
          ']' :: (("," ++ quoteText "chunker_version" ++ ":" ++
            quoteText structureAwareChunkerVersion ++ "," ++ quoteText "source_checksum" ++ ":" ++
              quoteText checksum ++ "," ++ quoteText "start_token" ++ ":").toList ++
                ((toString (key.2 : Int)).toList ++ ['\x7d']))) := by
  have sorted (anchors version source start : String) :
      sortedFields [("anchor_ids", anchors), ("chunker_version", version),
        ("source_checksum", source), ("start_token", start)] =
          [("anchor_ids", anchors), ("chunker_version", version), ("source_checksum", source),
            ("start_token", start)] := by
    refine List.Pairwise.insertionSort_eq ?_
    simp only [List.pairwise_cons, List.mem_cons, forall_eq_or_imp, List.not_mem_nil,
      false_implies, implies_true, List.Pairwise.nil, and_true]
    decide
  rw [chunkPayload, dumps]
  simp [dumpsFields, dumps, dumpsItems_strings, sorted]

theorem chunkPayload_inj {checksum : String} {key other : List String × ℕ}
    (same : chunkPayload checksum key = chunkPayload checksum other) : key = other := by
  have chars := congrArg String.toList same
  rw [toList_chunkPayload, toList_chunkPayload] at chars
  obtain ⟨anchors, behind⟩ := quoteTexts_inj (List.append_cancel_left chars)
  have number := List.append_cancel_right (List.append_cancel_left behind)
  have start : key.2.repr = other.2.repr := String.toList_injective number
  have digits := congrArg (fun text : String => Nat.ofDigitChars 10 text.toList 0) start
  simp at digits
  exact Prod.ext anchors digits

/-- What is hashed for the chunks of a group: their anchors, and the token they start with. -/
def groupKeys (entries : List (String × String)) : List (List String × ℕ) :=
  if (groupTokens entries).length ≤ 1000 then [(entries.map (·.1), 0)]
  else (List.range (count 1000 900 (groupTokens entries).length)).map fun k =>
    (((slice 1000 900 (groupTokens entries) k).map (·.1)).eraseDups, 900 * k)

theorem chunkIds_group (checksum : String) (ordinal : ℕ) (group : Group) :
    (chunksForGroup checksum group.1 group.2 ordinal).map (·.chunkId) =
      (groupKeys group.2).map fun key => chunkId checksum key.1 key.2 := by
  rw [groupKeys]
  split
  · rename_i fits
    rw [chunksForGroup_short checksum group.1 ordinal fits]
    rfl
  · rw [chunksForGroup_long checksum group.1 ordinal (by omega), List.map_map, List.map_map]
    rfl

theorem chunkIds_cuts (checksum : String) (ordinal : ℕ) (groups : List Group) :
    (cuts checksum ordinal groups).flatten.map (·.chunkId) =
      (groups.flatMap fun group => groupKeys group.2).map fun key =>
        chunkId checksum key.1 key.2 := by
  induction groups generalizing ordinal with
  | nil => rfl
  | cons group rest ih =>
      rw [cuts, List.flatten_cons, List.map_append, chunkIds_group, ih, List.flatMap_cons,
        List.map_append]

/-- A key names anchors of its group, and at least one. -/
theorem mem_groupKeys {entries : List (String × String)} (some_ : entries ≠ [])
    {key : List String × ℕ} (member : key ∈ groupKeys entries) :
    ∃ anchor ∈ key.1, anchor ∈ entries.map (·.1) ∧ ∀ other ∈ key.1, other ∈ entries.map (·.1) := by
  rw [groupKeys] at member
  split at member
  · rw [List.mem_singleton] at member
    obtain ⟨entry, listed⟩ := List.exists_mem_of_ne_nil entries some_
    have here : entry.1 ∈ entries.map (·.1) := List.mem_map.mpr ⟨entry, listed, rfl⟩
    exact ⟨entry.1, by rw [member]; exact here, here, fun other inside => by rwa [member] at inside⟩
  · rename_i exceeds
    obtain ⟨k, bound, rfl⟩ := List.mem_map.mp member
    have within {anchor : String}
        (inside : anchor ∈ ((slice 1000 900 (groupTokens entries) k).map (·.1)).eraseDups) :
        anchor ∈ entries.map (·.1) := by
      rw [List.mem_eraseDups] at inside
      obtain ⟨token, here, rfl⟩ := List.mem_map.mp inside
      exact (mem_groupTokens (mem_slice here)).1
    have tokens : groupTokens entries ≠ [] := by
      rw [← List.length_pos_iff]
      omega
    have filled := @length_slice_pos _ 1000 900 _ (by decide) (by decide) tokens _
      (List.mem_range.mp bound)
    obtain ⟨token, here⟩ := List.exists_mem_of_length_pos filled
    have anchor : token.1 ∈ ((slice 1000 900 (groupTokens entries) k).map (·.1)).eraseDups :=
      List.mem_eraseDups.mpr (List.mem_map.mpr ⟨token, here, rfl⟩)
    exact ⟨token.1, anchor, within anchor, fun other => within⟩

theorem nodup_groupKeys (entries : List (String × String)) : (groupKeys entries).Nodup := by
  rw [groupKeys]
  split
  · exact List.nodup_singleton _
  · refine List.Nodup.map (fun k other same => ?_) List.nodup_range
    have starts := (Prod.mk.inj same).2
    omega

/-- Groups with distinct anchors have distinct keys. -/
theorem nodup_keys {groups : List Group} (some_ : ∀ group ∈ groups, group.2 ≠ [])
    (distinct : (groups.flatMap fun group => group.2.map (·.1)).Nodup) :
    (groups.flatMap fun group => groupKeys group.2).Nodup := by
  rw [List.nodup_flatMap] at distinct ⊢
  refine ⟨fun group _ => nodup_groupKeys group.2, ?_⟩
  refine distinct.2.imp_of_mem fun {first second} here there apart key one two => ?_
  obtain ⟨anchor, inside, mine, -⟩ := mem_groupKeys (some_ first here) one
  obtain ⟨-, -, -, theirs⟩ := mem_groupKeys (some_ second there) two
  exact apart mine (theirs anchor inside)

theorem anchors_groupsOf (before : List String) (sections : List (List Entry)) :
    ((groupsOf before sections).flatMap fun group => group.2.map (·.1)) =
      sections.flatten.map (·.anchorId) := by
  induction sections generalizing before with
  | nil => rfl
  | cons first rest ih =>
      rw [groupsOf, List.flatMap_cons, ih, List.flatten_cons, List.map_append, List.map_map]
      rfl

theorem mem_groupsOf {before : List String} {sections : List (List Entry)} {group : Group}
    (member : group ∈ groupsOf before sections) : ∃ s ∈ sections, group.2 = s.map Entry.pair := by
  induction sections generalizing before with
  | nil => cases member
  | cons first rest ih =>
      rcases List.mem_cons.mp member with rfl | later
      · exact ⟨first, List.mem_cons_self, rfl⟩
      · obtain ⟨s, inside, same⟩ := ih later
        exact ⟨s, List.mem_cons_of_mem first inside, same⟩

/-- The chunks of a manifest cover the sections of its document one after another, their ordinals
count from zero, and what is hashed for their identifiers is pairwise distinct; so the identifiers
are, where the digest tells it apart. -/
def Lossless {φ : Type} (manifest : List (String × Json φ)) (entries : List Entry) : Prop :=
  ∃ (sections : List (List Entry)) (chunks : List (List RetrievalChunk)) (hashed : List String),
    structuralChunksFromManifest manifest = .ok chunks.flatten ∧
    IsSections entries sections ∧
    List.Forall₂ GroupCovered (groupsOf [] sections) chunks ∧
    chunks.flatten.map (·.ordinal) = List.range chunks.flatten.length ∧
    chunks.flatten.map (·.chunkId) =
      hashed.map (fun payload => "chunk-" ++ String.ofList (digest payload)) ∧
    hashed.Nodup ∧
    ((∀ first ∈ hashed, ∀ second ∈ hashed, digest first = digest second → first = second) →
      (chunks.flatten.map (·.chunkId)).Nodup)

theorem structuralChunks_lossless {φ : Type} {manifest : List (String × Json φ)}
    {checksum : String} {entries : List Entry}
    (read : readManifest manifest = .ok (checksum, entries))
    (distinct : (entries.map (·.anchorId)).Nodup) : Lossless manifest entries := by
  obtain ⟨sections, is, returned⟩ := structuralChunks_of_read read
  have ids := chunkIds_cuts checksum 0 (groupsOf [] sections)
  have keys : ((groupsOf [] sections).flatMap fun group => groupKeys group.2).Nodup := by
    refine nodup_keys (fun group member => ?_) ?_
    · obtain ⟨s, inside, same⟩ := mem_groupsOf member
      rw [same, ne_eq, List.map_eq_nil_iff]
      exact is.nonempty s inside
    · rw [anchors_groupsOf, is.flatten]
      exact distinct
  have hashed : (((groupsOf [] sections).flatMap fun group => groupKeys group.2).map
      (chunkPayload checksum)).Nodup :=
    keys.map fun key other => chunkPayload_inj
  refine ⟨sections, cuts checksum 0 (groupsOf [] sections), _, ?_, is,
    cuts_covered checksum (groupsOf [] sections) 0, ?_, ?_, hashed, fun tells => ?_⟩
  · rw [returned, chunksForGroups_eq, List.nil_append]
    rfl
  · rw [ordinals_cuts, List.range_eq_range']
  · rw [ids, List.map_map]
    rfl
  · have different := hashed.map_on (f := fun payload =>
      "chunk-" ++ String.ofList (digest payload)) fun first one second two same =>
        tells first one second two (by simpa using congrArg String.toList same)
    rw [List.map_map] at different
    rw [ids]
    exact different

/-- A manifest of one page, with a heading and a paragraph. -/
def feesManifest : List (String × Json Empty) :=
  [("source", .object [("checksum", .string "c0ffee")]),
    ("document", .object [("pages", .array [.object [("blocks", .array
      [.object [("kind", .string "heading"), ("anchor_id", .string "b1"),
          ("text", .string "Fees")],
        .object [("kind", .string "paragraph"), ("anchor_id", .string "b2"),
          ("text", .string " Fees are due. ")]])]])])]

theorem structuralChunks_lossless_fees :
    Lossless feesManifest [⟨true, "b1", "Fees"⟩, ⟨false, "b2", "Fees are due."⟩] :=
  @structuralChunks_lossless _ _ "c0ffee" _ (by rfl) (by decide +kernel)

end AgreementIntelligence.Evidence
