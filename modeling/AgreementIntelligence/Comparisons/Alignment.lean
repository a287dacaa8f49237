import AgreementIntelligence.Lib.Difflib
import AgreementIntelligence.Lib.MaximalRuns
import AgreementIntelligence.Lib.Queries
import AgreementIntelligence.Lib.Words
import Mathlib.Data.Finset.Basic
import Mathlib.Data.Finset.Card
import Mathlib.Data.Prod.Lex
import Mathlib.Data.Rat.Floor

/-! Alignment of two versions of an agreement. Elements of one normalized text are paired first,
then one element with two adjacent ones, then what is left by a score. Scores are exact. -/

namespace AgreementIntelligence.Comparisons
open Lib Text Casing Words Queries MaximalRuns

inductive AlignmentKind
  | matched | moved | split | merged | added | removed
deriving DecidableEq, Repr

def minimumCandidateScore : ℚ := 45 / 100
def reviewConfidence : ℚ := 75 / 100
def groupCoverageImprovement : ℚ := 15 / 100
def groupMinimumCoverage : ℚ := 76 / 100
def movedPositionDistance : ℚ := 25 / 100

structure CanonicalElement where
  elementId : String
  ordinal : ℕ
  headingPath : List String
  clauseType : Option String
  text : String
  citationAnchorIds : List String
  named : elementId ≠ ""
  spoken : strip text ≠ ""
  cited : citationAnchorIds ≠ []
deriving DecidableEq

structure CanonicalVersion where
  sourceChecksum : String
  elements : List CanonicalElement
  checked : sourceChecksum ≠ ""
  ordered : (elements.map (·.ordinal)).Nodup

inductive AlignmentError
  | valueError (message : String)
  | keyError (key : String)
deriving DecidableEq, Repr

structure Alignment where
  kind : AlignmentKind
  baselineElementIds : List String
  targetElementIds : List String
  confidence : ℚ
  reviewRequired : Bool
  rationale : List String
  measured : 0 ≤ confidence ∧ confidence ≤ 1
  adds : kind = .added → baselineElementIds = [] ∧ targetElementIds ≠ []
  removes : kind = .removed → baselineElementIds ≠ [] ∧ targetElementIds = []
  maps : kind ≠ .added → kind ≠ .removed → baselineElementIds ≠ [] ∧ targetElementIds ≠ []
deriving DecidableEq

/-- `Alignment(…)` with its `__post_init__` -/
def Alignment.new (kind : AlignmentKind) (baselineElementIds targetElementIds : List String)
    (confidence : ℚ) (reviewRequired : Bool) (rationale : List String) :
    Except AlignmentError Alignment :=
  if measured : 0 ≤ confidence ∧ confidence ≤ 1 then
    if adds : kind = .added → baselineElementIds = [] ∧ targetElementIds ≠ [] then
      if removes : kind = .removed → baselineElementIds ≠ [] ∧ targetElementIds = [] then
        if maps : kind ≠ .added → kind ≠ .removed →
            baselineElementIds ≠ [] ∧ targetElementIds ≠ [] then
          .ok ⟨kind, baselineElementIds, targetElementIds, confidence, reviewRequired, rationale,
            measured, adds, removes, maps⟩
        else .error (.valueError "Mapped alignment must contain baseline and target elements")
      else .error (.valueError "Removed alignment must contain baseline elements only")
    else .error (.valueError "Added alignment must contain target elements only")
  else .error (.valueError "Alignment confidence must be between zero and one")

/-- `round(value, 4)`, to the nearest and halves to the even one -/
def round4 (value : ℚ) : ℚ :=
  let scaled := value * 10000
  let low := ⌊scaled⌋
  let rest := scaled - low
  let nearest := if rest < 1 / 2 then low else if 1 / 2 < rest then low + 1
    else if low % 2 = 0 then low else low + 1
  nearest / 10000

/-- The characters of `_TOKEN_PATTERN` -/
def tokenChar (c : Char) : Bool :=
  ('a' ≤ c && c ≤ 'z') || ('0' ≤ c && c ≤ '9')

variable (table : CaseTable)

/-- `re.findall("[a-z0-9]+", value.casefold())` -/
def tokens (value : String) : List String :=
  (runs tokenChar (table.casefold value).toList).map String.ofList

def normalizedText (value : String) : String :=
  " ".intercalate (tokens table value)

def heading (element : CanonicalElement) : String :=
  element.headingPath.getLast?.getD ""

def tokenSimilarity (first second : String) : ℚ :=
  let firstTokens := (tokens table first).toFinset
  let secondTokens := (tokens table second).toFinset
  if firstTokens = ∅ ∧ secondTokens = ∅ then 1
  else if firstTokens = ∅ ∨ secondTokens = ∅ then 0
  else (firstTokens ∩ secondTokens).card / (firstTokens ∪ secondTokens).card

def tokenCoverage (source candidate : String) : ℚ :=
  let sourceTokens := (tokens table source).toFinset
  if sourceTokens = ∅ then 0
  else (sourceTokens ∩ (tokens table candidate).toFinset).card / sourceTokens.card

def compatibleClauseType (first second : CanonicalElement) : Bool :=
  match first.clauseType, second.clauseType with
  | some first, some second => table.casefold first = table.casefold second
  | _, _ => true

def taxonomySimilarity : Option String → Option String → ℚ
  | none, none => 1 / 2
  | some first, some second => if table.casefold first = table.casefold second then 1 else 0
  | _, _ => 1 / 4

def positionDistance (source destination : CanonicalElement)
    (sourceCount destinationCount : ℕ) : ℚ :=
  |(source.ordinal / max (sourceCount - 1) 1 : ℚ) -
    destination.ordinal / max (destinationCount - 1) 1|

def candidateScore (source destination : CanonicalElement)
    (sourceCount destinationCount : ℕ) : ℚ :=
  65 / 100 * Difflib.ratio (normalizedText table source.text).toList
      (normalizedText table destination.text).toList +
    20 / 100 * tokenSimilarity table (heading source) (heading destination) +
    10 / 100 * taxonomySimilarity table source.clauseType destination.clauseType +
    5 / 100 * (1 - positionDistance source destination sourceCount destinationCount)

def combinedElement (first second : CanonicalElement) : CanonicalElement where
  elementId := first.elementId ++ ("+" ++ second.elementId)
  ordinal := first.ordinal
  headingPath := first.headingPath
  clauseType := if first.clauseType = second.clauseType then first.clauseType else none
  text := first.text ++ ("\n" ++ second.text)
  citationAnchorIds := first.citationAnchorIds ++ second.citationAnchorIds
  named := by simp [first.named]
  spoken := strip_append_ne_empty first.spoken _
  cited := by simp [first.cited]

def adjacentPairs (elements : List CanonicalElement) (unmatchedIds : Finset String) :
    List (CanonicalElement × CanonicalElement) :=
  let available := elements.filter fun element => element.elementId ∈ unmatchedIds
  (available.zip available.tail).filter fun pair => pair.2.ordinal = pair.1.ordinal + 1

/-- Whether two adjacent elements together cover the source as neither of them does. -/
def coveredByGroup (source first second : CanonicalElement) : Bool :=
  (compatibleClauseType table source first || compatibleClauseType table source second) &&
    let coverage := tokenCoverage table source.text (combinedElement first second).text
    let individualCoverage := max (tokenCoverage table source.text first.text)
      (tokenCoverage table source.text second.text)
    groupMinimumCoverage ≤ coverage && groupCoverageImprovement ≤ coverage - individualCoverage

def groupConfidence (source first second : CanonicalElement)
    (sourceCount candidateCount : ℕ) : ℚ :=
  max (candidateScore table source (combinedElement first second) sourceCount candidateCount)
    (tokenCoverage table source.text (combinedElement first second).text)

def betterGroup (source : CanonicalElement) (sourceCount candidateCount : ℕ)
    (best : Option (CanonicalElement × CanonicalElement × ℚ))
    (pair : CanonicalElement × CanonicalElement) :
    Option (CanonicalElement × CanonicalElement × ℚ) :=
  if coveredByGroup table source pair.1 pair.2 then
    let confidence := groupConfidence table source pair.1 pair.2 sourceCount candidateCount
    match best with
    | none => some (pair.1, pair.2, round4 confidence)
    | some known =>
      if known.2.2 < confidence then some (pair.1, pair.2, round4 confidence) else best
  else best

def bestGroupCandidate (source : CanonicalElement)
    (candidates : List (CanonicalElement × CanonicalElement))
    (sourceElements candidateElements : List CanonicalElement) :
    Option (CanonicalElement × CanonicalElement × ℚ) :=
  candidates.foldl (betterGroup table source sourceElements.length candidateElements.length) none

/-- What the phases share: the ids that no alignment has yet, and the alignments. -/
structure Progress where
  unmatchedBaseline : Finset String
  unmatchedTarget : Finset String
  results : List Alignment

/-- `unmatched.remove(id)` -/
def removeId (unmatched : Finset String) (id : String) : Except AlignmentError (Finset String) :=
  if id ∈ unmatched then .ok (unmatched.erase id) else .error (.keyError id)

/-- `(reason, *("Relative document position changed." if moved else ()))`, which unpacks the
characters of the text -/
def pairRationale (reason : String) (moved : Bool) : List String :=
  reason :: if moved then "Relative document position changed.".toList.map String.singleton else []

def exactReason : String := "Normalized text and clause taxonomy are identical."

/-- One source and one destination are taken from the unmatched ids and aligned. -/
def alignPair (reason : String) (confidence : ℚ) (reviewRequired : Bool)
    (baseline target : List CanonicalElement) (source destination : CanonicalElement)
    (progress : Progress) : Except AlignmentError Progress := do
  let unmatchedBaseline ← removeId progress.unmatchedBaseline source.elementId
  let unmatchedTarget ← removeId progress.unmatchedTarget destination.elementId
  let moved : Bool :=
    movedPositionDistance ≤ positionDistance source destination baseline.length target.length
  let alignment ← Alignment.new (if moved then .moved else .matched) [source.elementId]
    [destination.elementId] confidence reviewRequired (pairRationale reason moved)
  .ok ⟨unmatchedBaseline, unmatchedTarget, progress.results ++ [alignment]⟩

/-- `targets_by_text.get(_normalized_text(source.text), [])`, less what is matched or of another
clause type -/
def exactCandidates (target : List CanonicalElement) (unmatchedTarget : Finset String)
    (source : CanonicalElement) : List CanonicalElement :=
  (target.filter fun element =>
      normalizedText table element.text = normalizedText table source.text).filter fun element =>
    element.elementId ∈ unmatchedTarget && compatibleClauseType table source element

def alignExactElement (baseline target : List CanonicalElement) (progress : Progress)
    (source : CanonicalElement) : Except AlignmentError Progress :=
  if source.elementId ∈ progress.unmatchedBaseline then
    match exactCandidates table target progress.unmatchedTarget source with
    | [candidate] => alignPair exactReason 1 false baseline target source candidate progress
    | _ => .ok progress
  else .ok progress

def alignExactElements (baseline target : List CanonicalElement) (progress : Progress) :
    Except AlignmentError Progress :=
  baseline.foldlM (alignExactElement table baseline target) progress

def alignSplit (baseline target : List CanonicalElement) (progress : Progress)
    (source : CanonicalElement) : Except AlignmentError Progress :=
  if source.elementId ∈ progress.unmatchedBaseline then
    match bestGroupCandidate table source (adjacentPairs target progress.unmatchedTarget)
        baseline target with
    | none => .ok progress
    | some (first, second, confidence) => do
      let unmatchedBaseline ← removeId progress.unmatchedBaseline source.elementId
      let unmatchedTarget := progress.unmatchedTarget \ {first.elementId, second.elementId}
      let alignment ← Alignment.new .split [source.elementId]
        [first.elementId, second.elementId] confidence (confidence < reviewConfidence)
        ["One baseline element is covered by two adjacent target elements."]
      .ok ⟨unmatchedBaseline, unmatchedTarget, progress.results ++ [alignment]⟩
  else .ok progress

def alignMerged (baseline target : List CanonicalElement) (progress : Progress)
    (destination : CanonicalElement) : Except AlignmentError Progress :=
  if destination.elementId ∈ progress.unmatchedTarget then
    match bestGroupCandidate table destination (adjacentPairs baseline progress.unmatchedBaseline)
        target baseline with
    | none => .ok progress
    | some (first, second, confidence) => do
      let unmatchedTarget ← removeId progress.unmatchedTarget destination.elementId
      let unmatchedBaseline := progress.unmatchedBaseline \ {first.elementId, second.elementId}
      let alignment ← Alignment.new .merged [first.elementId, second.elementId]
        [destination.elementId] confidence (confidence < reviewConfidence)
        ["Two adjacent baseline elements are covered by one target element."]
      .ok ⟨unmatchedBaseline, unmatchedTarget, progress.results ++ [alignment]⟩
  else .ok progress

def alignAdjacentGroups (baseline target : List CanonicalElement) (progress : Progress) :
    Except AlignmentError Progress := do
  let split ← baseline.foldlM (alignSplit table baseline target) progress
  target.foldlM (alignMerged table baseline target) split

/-- The pairs that are left with their scores, the best first. -/
def remainingCandidates (baseline target : List CanonicalElement) (progress : Progress) :
    List (ℚ × CanonicalElement × CanonicalElement) :=
  orderBy (fun candidate => toLex (-candidate.1,
      toLex (candidate.2.1.ordinal, candidate.2.2.ordinal)))
    ((baseline.filter fun source => source.elementId ∈ progress.unmatchedBaseline).flatMap
      fun source => (target.filter fun destination =>
          destination.elementId ∈ progress.unmatchedTarget &&
            compatibleClauseType table source destination).map fun destination =>
        (candidateScore table source destination baseline.length target.length,
          source, destination))

def alignCandidates (baseline target : List CanonicalElement) :
    List (ℚ × CanonicalElement × CanonicalElement) → Progress → Except AlignmentError Progress
  | [], progress => .ok progress
  | (confidence, source, destination) :: rest, progress =>
    if confidence < minimumCandidateScore then .ok progress
    else if source.elementId ∈ progress.unmatchedBaseline ∧
        destination.elementId ∈ progress.unmatchedTarget then do
      let next ← alignPair "Text, heading, clause taxonomy, and relative position were compared."
        (round4 confidence) (confidence < reviewConfidence) baseline target source destination
        progress
      alignCandidates baseline target rest next
    else alignCandidates baseline target rest progress

def alignRemainingPairs (baseline target : List CanonicalElement) (progress : Progress) :
    Except AlignmentError Progress :=
  alignCandidates baseline target (remainingCandidates table baseline target progress) progress

/-- `elements_by_id[id].ordinal` -/
def ordinalOf (elements : List CanonicalElement) (id : String) : Except AlignmentError ℕ :=
  match elements.reverse.find? fun element => element.elementId = id with
  | some element => .ok element.ordinal
  | none => .error (.keyError id)

/-- `min(elements_by_id[item].ordinal for item in ids)` -/
def leastOrdinal (elements : List CanonicalElement) (ids : List String) :
    Except AlignmentError ℕ := do
  let ordinals ← ids.mapM (ordinalOf elements)
  match ordinals.min? with
  | some least => .ok least
  | none => .error (.valueError "min() iterable argument is empty")

def alignmentSortKey (baseline target : List CanonicalElement) (alignment : Alignment) :
    Except AlignmentError (ℕ ×ₗ ℕ) :=
  if alignment.baselineElementIds ≠ [] then
    (leastOrdinal baseline alignment.baselineElementIds).map fun least => toLex (least, 0)
  else (leastOrdinal target alignment.targetElementIds).map fun least => toLex (least, 1)

/-- `sorted(results, key=…)` -/
def sortAlignments (baseline target : List CanonicalElement) (results : List Alignment) :
    Except AlignmentError (List Alignment) := do
  let keyed ← results.mapM fun alignment =>
    (alignmentSortKey baseline target alignment).map fun key => (key, alignment)
  .ok ((orderBy (·.1) keyed).map (·.2))

def removedAlignment (element : CanonicalElement) : Except AlignmentError Alignment :=
  Alignment.new .removed [element.elementId] [] 1 false ["No compatible target element was found."]

def addedAlignment (element : CanonicalElement) : Except AlignmentError Alignment :=
  Alignment.new .added [] [element.elementId] 1 false ["No compatible baseline element was found."]

def alignVersions (baseline target : CanonicalVersion) :
    Except AlignmentError (List Alignment) := do
  let baselineElements := orderBy (·.ordinal) baseline.elements
  let targetElements := orderBy (·.ordinal) target.elements
  let start : Progress :=
    ⟨(baselineElements.map (·.elementId)).toFinset, (targetElements.map (·.elementId)).toFinset, []⟩
  let exact ← alignExactElements table baselineElements targetElements start
  let grouped ← alignAdjacentGroups table baselineElements targetElements exact
  let paired ← alignRemainingPairs table baselineElements targetElements grouped
  let removed ← (baselineElements.filter fun element =>
    element.elementId ∈ paired.unmatchedBaseline).mapM removedAlignment
  let added ← (targetElements.filter fun element =>
    element.elementId ∈ paired.unmatchedTarget).mapM addedAlignment
  sortAlignments baselineElements targetElements (paired.results ++ removed ++ added)

end AgreementIntelligence.Comparisons
