import AgreementIntelligence.Usage.Ledger

/-! What a search request writes into its reservation. The query is embedded for the configuration
that is resolved and then, while results are wanted, for the other spaces of the index; each answer
of the provider goes to a settlement that has one key for the whole request. -/

namespace AgreementIntelligence.Usage
open Identity Lib Lib.Columns

/-- What the provider reports of a call. -/
structure GatewayProvenance where
  inputTokens : Option ℕ
  totalTokens : Option ℕ
  costUsd : Option ℚ≥0
  deriving DecidableEq

/-- An agreement, a build of its index and a chunk. -/
abbrev CandidateKey := Uuid × Uuid × String

/-- What becomes of a call: it raises, or the provider answers and the candidates of the space are
read, `none` where reading them raises. -/
inductive EmbeddingAnswer where
  | raised
  | answered (provenance : GatewayProvenance) (candidates : Option (List CandidateKey))
  deriving DecidableEq

/-- A request with the row that its reservation has added, and what the code that it calls comes to;
`none` stands for what raises. The configuration of a space may not be resolvable. An embedding call
is known by its number, its configuration and how many candidates it may add. -/
structure SearchRequest where
  record : AIUsageLedgerRecord
  gateway : Bool
  configuration : Option String
  spaces : Option (List String)
  prior : String → Option (Option String)
  embed : ℕ → String → ℕ → EmbeddingAnswer
  reserved : record.status = .reserved
  unused : record.actualTokens = none ∧ record.actualCostUsd = none

/-! The ledger's calls, for a row that the session holds -/

/-- `settle_usage` -/
def settleUsage (record : AIUsageLedgerRecord) (actual : UsageAmount) (settlementKey : String) :
    Except String AIUsageLedgerRecord :=
  if record.status = .settled then
    if record.settlementKey ≠ some settlementKey then
      .error "usage reservation was settled by another provider request"
    else .ok record
  else .ok (settledRow record actual settlementKey record)

/-- `cancel_usage` -/
def cancelUsage (record : AIUsageLedgerRecord) : Except String AIUsageLedgerRecord :=
  if record.status = .cancelled then .ok record
  else if record.status = .settled then .error "settled usage cannot be cancelled"
  else .ok (cancelledRow record record)

/-! The request -/

/-- What a request holds while it runs, with the answers of the provider so far. -/
structure SearchState where
  record : AIUsageLedgerRecord
  usageSettled : Bool
  calls : ℕ
  returned : List GatewayProvenance

/-- `count or other` -/
def truthyOr (count : Option ℕ) (other : ℕ) : ℕ :=
  match count with
  | some (n + 1) => n + 1
  | _ => other

namespace SearchRequest
variable (request : SearchRequest)

def estimated : UsageAmount :=
  ⟨request.record.estimatedTokens, request.record.estimatedCostUsd⟩

def settlementKey : String :=
  "search:" ++ request.record.reservationId.str

/-- The amount that `settle` passes on. -/
def actual (provenance : GatewayProvenance) : UsageAmount :=
  ⟨truthyOr provenance.totalTokens (truthyOr provenance.inputTokens request.estimated.tokens),
    provenance.costUsd.getD request.estimated.costUsd⟩

/-- `settle` -/
def settle (state : SearchState) (provenance : GatewayProvenance) : Except String SearchState := do
  let record ← settleUsage state.record (request.actual provenance) request.settlementKey
  return { state with record, usageSettled := true }

/-- `_candidates_for_configuration` -/
def candidatesForConfiguration (state : SearchState) (version : String) (limit : ℕ) :
    SearchState × Option (List CandidateKey) :=
  match request.embed state.calls version limit with
  | .raised => ({ state with calls := state.calls + 1 }, none)
  | .answered provenance candidates =>
    let answered :=
      { state with calls := state.calls + 1, returned := state.returned ++ [provenance] }
    match request.settle answered provenance with
    | .error _ => (answered, none)
    | .ok settled => (settled, candidates)

/-- The candidates that are not there yet are added in their order. -/
def addUnseen (results fallback : List CandidateKey) : List CandidateKey :=
  fallback.foldl (fun results item => if item ∈ results then results else results ++ [item]) results

/-- The loop over the spaces. -/
def visitSpaces (version : String) (limit : ℕ) :
    List String → SearchState → List CandidateKey → SearchState × Option (List CandidateKey)
  | [], state, results => (state, some (results.take limit))
  | space :: rest, state, results =>
    if limit ≤ results.length then (state, some (results.take limit))
    else if space = version then visitSpaces version limit rest state results
    else
      match request.prior space with
      | none => (state, none)
      | some none => visitSpaces version limit rest state results
      | some (some prior) =>
        match request.candidatesForConfiguration state prior (limit - results.length) with
        | (next, none) => visitSpaces version limit rest next results
        | (next, some fallback) =>
          visitSpaces version limit rest next (addUnseen results fallback)

/-- `candidates`; the repository gives at most five spaces. -/
def candidates (limit : ℕ) (state : SearchState) : SearchState × Option (List CandidateKey) :=
  if !request.gateway then (state, some [])
  else
    match request.configuration with
    | none => (state, none)
    | some version =>
      match request.candidatesForConfiguration state version limit with
      | (next, none) => (next, none)
      | (next, some active) =>
        match request.spaces with
        | none => (next, none)
        | some spaces => request.visitSpaces version limit (spaces.take 5) next active

/-- `MAX_CANDIDATES_PER_CHANNEL` -/
def maxCandidatesPerChannel : ℕ := 50

/-- What the request holds when the search is over; a search that raises finds nothing. -/
def searched : SearchState :=
  (request.candidates maxCandidatesPerChannel ⟨request.record, false, 0, []⟩).1

/-- `search_agreements`, with the row of the reservation at the commit. -/
def searchAgreements : Except String AIUsageLedgerRecord :=
  if request.searched.usageSettled then .ok request.searched.record
  else cancelUsage request.searched.record

/-! The first answer is recorded, and no other -/

/-- The row after the answers so far. -/
def Recorded (state : SearchState) : Prop :=
  match state.returned with
  | [] => state.record = request.record ∧ state.usageSettled = false
  | first :: _ =>
    state.record = settledRow request.record (request.actual first) request.settlementKey
      request.record ∧ state.usageSettled = true

variable {request}

theorem settle_recorded {state : SearchState} (recorded : request.Recorded state) (calls : ℕ)
    (provenance : GatewayProvenance) : ∃ settled,
      request.settle { state with calls := calls, returned := state.returned ++ [provenance] }
        provenance = .ok settled ∧ request.Recorded settled := by
  obtain ⟨record, usageSettled, before, returned⟩ := state
  cases returned with
  | nil =>
    obtain ⟨rfl, -⟩ := recorded
    refine ⟨⟨_, true, calls, [provenance]⟩, ?_, rfl, rfl⟩
    rw [settle, settleUsage, if_neg (by simp [request.reserved])]
    rfl
  | cons first later =>
    obtain ⟨rfl, rfl⟩ := recorded
    refine ⟨⟨_, true, calls, first :: later ++ [provenance]⟩, ?_, rfl, rfl⟩
    simp [settle, settleUsage, settledRow, bind, Except.bind, pure, Except.pure]

theorem candidatesForConfiguration_recorded {state : SearchState}
    (recorded : request.Recorded state) (version : String) (limit : ℕ) :
    request.Recorded (request.candidatesForConfiguration state version limit).1 := by
  rw [candidatesForConfiguration]
  cases request.embed state.calls version limit with
  | raised => exact recorded
  | answered provenance candidates =>
    obtain ⟨settled, same, kept⟩ := settle_recorded recorded (state.calls + 1) provenance
    simp only [same]
    exact kept

theorem visitSpaces_recorded (version : String) (limit : ℕ) {spaces : List String}
    {state : SearchState} (recorded : request.Recorded state) (results : List CandidateKey) :
    request.Recorded (request.visitSpaces version limit spaces state results).1 := by
  induction spaces generalizing state results with
  | nil => exact recorded
  | cons space rest ih =>
    rw [visitSpaces]
    split_ifs
    · exact recorded
    · exact ih recorded results
    · cases request.prior space with
      | none => exact recorded
      | some resolved =>
        cases resolved with
        | none => exact ih recorded results
        | some prior =>
          have kept := candidatesForConfiguration_recorded recorded prior (limit - results.length)
          dsimp only
          generalize request.candidatesForConfiguration state prior (limit - results.length) =
            next at kept ⊢
          obtain ⟨after, found⟩ := next
          cases found <;> exact ih kept _

theorem searched_recorded (request : SearchRequest) : request.Recorded request.searched := by
  have start : request.Recorded ⟨request.record, false, 0, []⟩ := ⟨rfl, rfl⟩
  rw [searched, candidates]
  split_ifs
  · exact start
  · cases request.configuration with
    | none => exact start
    | some version =>
      have kept := candidatesForConfiguration_recorded start version maxCandidatesPerChannel
      dsimp only
      generalize request.candidatesForConfiguration ⟨request.record, false, 0, []⟩ version
        maxCandidatesPerChannel = next at kept ⊢
      obtain ⟨after, found⟩ := next
      cases found with
      | none => exact kept
      | some active =>
        cases request.spaces with
        | none => exact kept
        | some spaces => exact visitSpaces_recorded version _ kept active

/-! What the ledger should hold -/

variable (request)

/-- The tokens that an answer stands for: a missing count is taken as the estimate. -/
def countedTokens (provenance : GatewayProvenance) : ℕ :=
  provenance.totalTokens.getD (provenance.inputTokens.getD request.estimated.tokens)

def countedCost (provenance : GatewayProvenance) : ℚ≥0 :=
  provenance.costUsd.getD request.estimated.costUsd

/-- The row sums up all answers, and is cancelled when there was none. -/
def SettlesAll (row : AIUsageLedgerRecord) : Prop :=
  row.actualTokens.getD 0 = (request.searched.returned.map request.countedTokens).sum ∧
    row.actualCostUsd.getD 0 = (request.searched.returned.map request.countedCost).sum ∧
    (row.status = .cancelled ↔ request.searched.returned = [])

/-- The answers after the first one report no cost, and as many tokens as the first one's zero is
replaced by, which is none where its count is missing or is not zero. -/
def FirstIsAll : Prop :=
  match request.searched.returned with
  | [] => True
  | first :: later =>
    (request.actual first).tokens =
        request.countedTokens first + (later.map request.countedTokens).sum ∧
      (later.map request.countedCost).sum = 0

/-- An index with a second space, for which the provider answers as well. -/
def twoSpaces : SearchRequest where
  record :=
    { reservationId := .ofNat 1
      organizationId := .ofNat 2
      workspaceId := .ofNat 3
      userId := .ofNat 4
      operation := "model.embed.query"
      provider := "openai"
      configurationVersion := "v2"
      estimatedTokens := 512
      estimatedCostUsd := 0
      actualTokens := none
      actualCostUsd := none
      status := .reserved
      settlementKey := none
      createdAt := 0 }
  gateway := true
  configuration := some "v2"
  spaces := some ["v2", "v1"]
  prior version := some (some version)
  embed _ version _ :=
    let tokens := if version = "v2" then 10 else 20
    .answered ⟨some tokens, some tokens, some 0⟩ (some [])
  reserved := rfl
  unused := ⟨rfl, rfl⟩

end SearchRequest

end AgreementIntelligence.Usage
