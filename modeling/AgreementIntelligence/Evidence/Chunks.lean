import AgreementIntelligence.Lib.JsonText
import AgreementIntelligence.Lib.Results
import AgreementIntelligence.Lib.Words

/-! The retrieval chunks of an analysed document. Blocks are grouped under headings, and a group
with too many words is cut into windows that overlap. -/

namespace AgreementIntelligence.Evidence
open Lib.Text Lib.Words Lib.Json Lib.Sha256 Lib.Results

def structureAwareChunkerVersion : String := "structure-aware.v1"

def maxChunkTokens : Nat := 1000

def chunkOverlapTokens : Nat := 100

structure RetrievalChunk where
  chunkId : String
  ordinal : Nat
  headingPath : List String
  anchorIds : List String
  text : String
  deriving DecidableEq, Repr

variable {φ : Type}

/-- `_required_string`; an error is a `ValueError` with its message. -/
def requiredString (value : List (String × Json φ)) (key : String) : Except String String :=
  match get value key with
  | .string text =>
    if text = "" then .error ("Canonical analysis artifact has invalid " ++ key) else .ok text
  | _ => .error ("Canonical analysis artifact has invalid " ++ key)

def sourceChecksum (manifest : List (String × Json φ)) : Except String String :=
  match get manifest "source" with
  | .object source => requiredString source "checksum"
  | _ => .error "Canonical analysis artifact has no source"

def pageBlocks : List (Json φ) → Except String (List (Json φ))
  | [] => .ok []
  | .object page :: rest =>
    match get page "blocks" with
    | .array blocks => do
      let others ← pageBlocks rest
      .ok (blocks ++ others)
    | _ => .error "Canonical analysis artifact has malformed page blocks"
  | _ :: _ => .error "Canonical analysis artifact has malformed page blocks"

def blocks (manifest : List (String × Json φ)) : Except String (List (Json φ)) :=
  match get manifest "document" with
  | .object document =>
    match get document "pages" with
    | .array pages => pageBlocks pages
    | _ => .error "Canonical analysis artifact has no document pages"
  | _ => .error "Canonical analysis artifact has no document pages"

/-- A heading path with the anchors and texts under it. -/
abbrev Group := List String × List (String × String)

def appendToLast (groups : List Group) (entry : String × String) : List Group :=
  match groups.getLast? with
  | none => groups
  | some last => groups.dropLast ++ [(last.1, last.2 ++ [entry])]

/-- The loop of `structural_chunks_from_manifest` over the blocks. -/
def groupBlocks (currentHeadingPath : List String) (groups : List Group) :
    List (Json φ) → Except String (List Group)
  | [] => .ok groups
  | .object block :: rest => do
    let raw ← requiredString block "text"
    let text := strip raw
    if text = "" then groupBlocks currentHeadingPath groups rest
    else
      let anchorId ← requiredString block "anchor_id"
      match get block "kind" with
      | .string "heading" =>
        let path := currentHeadingPath ++ [text]
        groupBlocks path (groups ++ [(path, [(anchorId, text)])]) rest
      | _ =>
        if groups ≠ [] then
          groupBlocks currentHeadingPath (appendToLast groups (anchorId, text)) rest
        else groupBlocks currentHeadingPath [(currentHeadingPath, [(anchorId, text)])] rest
  | _ :: _ => .error "AttributeError"

/-- `_chunk_id` -/
def chunkId (checksum : String) (anchorIds : List String) (startToken : Nat) : String :=
  let payload : Json Empty := .object
    [("anchor_ids", .array (anchorIds.map .string)),
      ("chunker_version", .string structureAwareChunkerVersion),
      ("source_checksum", .string checksum), ("start_token", .int startToken)]
  "chunk-" ++ String.ofList ((hexdigest (utf8 (dumps nofun payload))).toList.take 32)

/-- `_chunk_from_tokens` -/
def chunkFromTokens (checksum : String) (headingPath : List String)
    (tokens : List (String × List Char)) (ordinal startToken : Nat) : RetrievalChunk :=
  let anchorIds := (tokens.map (·.1)).eraseDups
  { chunkId := chunkId checksum anchorIds startToken
    ordinal := ordinal
    headingPath := headingPath
    anchorIds := anchorIds
    text := " ".intercalate (tokens.map fun token => String.ofList token.2) }

/-- The loop of `_chunks_for_group` over the tokens: the windows with the places they start at. -/
def windows (currentTokens : List (String × List Char)) (startToken : Nat) :
    List (String × List Char) → List (List (String × List Char) × Nat)
  | [] => if currentTokens = [] then [] else [(currentTokens, startToken)]
  | token :: rest =>
    if currentTokens ≠ [] ∧ currentTokens.length = maxChunkTokens then
      let overlap := currentTokens.drop (currentTokens.length - chunkOverlapTokens)
      (currentTokens, startToken) ::
        windows (overlap ++ [token]) (startToken + (maxChunkTokens - overlap.length)) rest
    else windows (currentTokens ++ [token]) startToken rest

def groupTokens (entries : List (String × String)) : List (String × List Char) :=
  entries.flatMap fun entry => (words entry.2.toList).map fun token => (entry.1, token)

def chunksForGroup (checksum : String) (headingPath : List String)
    (entries : List (String × String)) (startingOrdinal : Nat) : List RetrievalChunk :=
  let groupText := "\n".intercalate (entries.map (·.2))
  if (words groupText.toList).length ≤ maxChunkTokens then
    [{ chunkId := chunkId checksum (entries.map (·.1)) 0
       ordinal := startingOrdinal
       headingPath := headingPath
       anchorIds := entries.map (·.1)
       text := groupText }]
  else
    (windows [] 0 (groupTokens entries)).zipIdx.map fun window =>
      chunkFromTokens checksum headingPath window.1.1 (startingOrdinal + window.2) window.1.2

def chunksForGroups (checksum : String) (chunks : List RetrievalChunk) :
    List Group → List RetrievalChunk
  | [] => chunks
  | group :: rest =>
    chunksForGroups checksum (chunks ++ chunksForGroup checksum group.1 group.2 chunks.length) rest

def structuralChunksFromManifest (manifest : List (String × Json φ)) :
    Except String (List RetrievalChunk) := do
  let checksum ← sourceChecksum manifest
  let found ← blocks manifest
  let groups ← groupBlocks [] [] found
  .ok (chunksForGroups checksum [] groups)

end AgreementIntelligence.Evidence
