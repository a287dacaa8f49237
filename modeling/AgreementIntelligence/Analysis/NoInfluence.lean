import AgreementIntelligence.Analysis.Artifact

/-! Providers have no say in what the rules find. Merging only appends, what it appends carries
the version of the provider, and an evaluation looks at the clauses of the rules alone. -/

namespace AgreementIntelligence.Analysis
open Lib.Casing Lib.Json Lib.Text Lib.Results Playbooks Identity Evidence

section Merging
variable {α : Type} (identity : α → CitedIdentity)

theorem mergeFrom_append (merged : List α) (identities : List CitedIdentity)
    (enrichment : List α) : ∃ added : List α,
      mergeFrom identity merged identities enrichment = merged ++ added ∧
        added.Sublist enrichment := by
  induction enrichment generalizing merged identities with
  | nil => exact ⟨[], by simp [mergeFrom]⟩
  | cons item rest ih =>
      by_cases known : identity item ∈ identities
      · obtain ⟨added, merges, kept⟩ := ih merged identities
        rw [mergeFrom, if_pos known]
        exact ⟨added, merges, kept.cons item⟩
      · obtain ⟨added, merges, kept⟩ := ih (merged ++ [item]) (identity item :: identities)
        rw [mergeFrom, if_neg known, merges]
        exact ⟨item :: added, by simp, kept.cons_cons item⟩

theorem mergeCitedItems_append (deterministic enrichment : List α) : ∃ added : List α,
    mergeCitedItems identity deterministic enrichment = deterministic ++ added ∧
      added.Sublist enrichment :=
  mergeFrom_append identity deterministic (deterministic.map identity) enrichment

end Merging

variable {φ : Type} {runtime : Runtime φ} {guardrail : Guardrail} {parsed : ParsedDocument}
  {source : SourceDocument} {organizationId workspaceId : Option Uuid}

/-- The clauses of the rules, and behind them clauses of a provider. -/
def Extends (runtime : Runtime φ) (parsed : ParsedDocument) (manifest : ManifestBody φ) : Prop :=
  ∃ added : List (ExtractedClause φ),
    manifest.clauses = extractClauses runtime (blocksOf parsed) ++ added ∧
      ∀ clause ∈ added, clause.extractionVersion = providerAnalysisVersion

theorem extends_deterministic (runtime : Runtime φ) (parsed : ParsedDocument)
    (source : SourceDocument) :
    Extends runtime parsed (deterministicManifest runtime parsed source (blocksOf parsed)) :=
  ⟨[], (List.append_nil _).symm, by simp⟩

theorem providerClauses_version {enriched : ValidatedAnalysis φ} :
    ∀ clause ∈ providerClauses enriched, clause.extractionVersion = providerAnalysisVersion := by
  simp [providerClauses]

theorem extends_merged {enriched : ValidatedAnalysis φ} {merged : ManifestBody φ}
    (merges : mergeProviderEnrichment
      (deterministicManifest runtime parsed source (blocksOf parsed)) enriched = .ok merged) :
    Extends runtime parsed merged := by
  obtain ⟨summaries, -, same⟩ := bind_ok.mp merges
  cases same
  obtain ⟨added, appends, kept⟩ := mergeCitedItems_append ExtractedClause.identity
    (extractClauses runtime (blocksOf parsed)) (providerClauses enriched)
  exact ⟨added, appends, fun clause member =>
    providerClauses_version clause (kept.subset member)⟩

/-- Whatever the provider does: a manifest that is returned keeps the clauses of the rules. -/
theorem manifest_extends {provider : Option (AnalysisProvider φ)} {made : Manifest φ}
    (makes : manifest runtime guardrail parsed source provider organizationId workspaceId =
      .ok made) : Extends runtime parsed made.toManifestBody := by
  have alone := extends_deterministic runtime parsed source
  unfold manifest at makes
  cases provider with
  | none =>
      cases makes
      exact alone
  | some analyze =>
      simp only at makes
      split at makes
      · cases makes
        exact alone
      · split at makes
        · cases makes
        · cases makes
          exact alone
        · split at makes
          · cases makes
          · cases makes
            exact alone
          · obtain ⟨merged, merges, same⟩ := bind_ok.mp makes
            cases same
            exact extends_merged merges

theorem isDeterministicClause_of_provider {clause : ExtractedClause φ}
    (version : clause.extractionVersion = providerAnalysisVersion) :
    isDeterministicClause clause.fields = false := by
  rw [isDeterministicClause, get_extractionVersion, version]
  have other : startsWith providerAnalysisVersion "clause-rules." = false := by decide
  exact other

/-- The candidates for a rule are found among the clauses of the rules. -/
theorem workerCandidates_extends {made : Manifest φ} (casing : CaseTable) (rule : PlaybookRule)
    (extended : Extends runtime parsed made.toManifestBody) :
    workerCandidates casing rule made.fields =
      ((extractClauses runtime (blocksOf parsed)).map ExtractedClause.fields).filter fun clause =>
        canonicalClauseType casing (get clause "category") =
            canonicalClauseType casing (.string rule.clauseType : Json φ) &&
          isDeterministicClause clause := by
  obtain ⟨added, appends, provided⟩ := extended
  have none : (added.map ExtractedClause.fields).filter (fun clause =>
      canonicalClauseType casing (get clause "category") =
          canonicalClauseType casing (.string rule.clauseType : Json φ) &&
        isDeterministicClause clause) = [] := by
    apply List.filter_eq_nil_iff.mpr
    intro fields member
    obtain ⟨clause, here, rfl⟩ := List.mem_map.mp member
    simp [isDeterministicClause_of_provider (provided clause here)]
  rw [workerCandidates, clauses_fields, appends, List.map_append, List.filter_append, none,
    List.append_nil]

/-- An evaluation reads nothing of an analysis but the candidates. -/
theorem evaluatePlaybook_congr {floats : Floats φ} {casing : CaseTable}
    {assessor : Option (SemanticAssessor φ)} {analysis other : Mapping φ}
    (same : ∀ rule, workerCandidates casing rule analysis = workerCandidates casing rule other)
    (rules : List PlaybookRule) :
    evaluatePlaybook floats casing assessor analysis rules =
      evaluatePlaybook floats casing assessor other rules := by
  induction rules with
  | nil => rfl
  | cons rule rest ih => rw [evaluatePlaybook, evaluatePlaybook, same rule, ih]

/-- The stored list of clauses starts with those of the rules, unchanged. -/
def KeepsClauses (runtime : Runtime φ) (parsed : ParsedDocument) (made : Manifest φ) : Prop :=
  ∃ added : List (Json φ), get made.fields "clauses" =
    .array (((extractClauses runtime (blocksOf parsed)).map fun clause => .object clause.fields) ++
      added)

theorem keepsClauses_of_extends {made : Manifest φ}
    (extended : Extends runtime parsed made.toManifestBody) : KeepsClauses runtime parsed made := by
  obtain ⟨added, appends, -⟩ := extended
  refine ⟨added.map fun clause => .object clause.fields, ?_⟩
  rw [get_clauses, appends, List.map_append]

/-- Two providers that both let a document be analysed leave the same clauses of the rules in
front and the same findings for every playbook. -/
theorem manifest_uninfluenced {provider other : Option (AnalysisProvider φ)}
    {made made' : Manifest φ} (rules : List PlaybookRule)
    (makes : manifest runtime guardrail parsed source provider organizationId workspaceId =
      .ok made)
    (makes' : manifest runtime guardrail parsed source other organizationId workspaceId =
      .ok made') :
    KeepsClauses runtime parsed made ∧ KeepsClauses runtime parsed made' ∧
      evaluatePlaybook runtime.toFloats runtime.casing none made.fields rules =
        evaluatePlaybook runtime.toFloats runtime.casing none made'.fields rules := by
  have extended := manifest_extends makes
  have extended' := manifest_extends makes'
  refine ⟨keepsClauses_of_extends extended, keepsClauses_of_extends extended', ?_⟩
  apply evaluatePlaybook_congr
  intro rule
  rw [workerCandidates_extends runtime.casing rule extended,
    workerCandidates_extends runtime.casing rule extended']

section Failures

theorem summaryTypes_of_summaries {casing : CaseTable} {value : Json φ}
    {allowed : List (String × String)} {found : List (String × Summary)}
    (valid : summaries casing value allowed = .ok found) :
    ∀ key ∈ summaryTypes, key ∈ found.map Prod.fst := by
  obtain ⟨payload, -, checked⟩ := bind_ok.mp valid
  split at checked
  · cases checked
  · rename_i whole
    rw [Bool.not_eq_true', Bool.not_eq_false, hasKeys, Bool.and_eq_true] at whole
    have keys := List.all_eq_true.mp whole.2
    intro key member
    have listed := of_decide_eq_true (keys key member)
    have same : found.map Prod.fst = payload.map Prod.fst := by
      refine map_of_mapM (fun item result round => ?_) checked
      split at round
      · cases round
      · obtain ⟨text, -, made⟩ := bind_ok.mp round
        cases made
        rfl
    rw [same]
    exact listed

theorem get?_isSome_of_key {enrichment : List (String × ArtifactSummary)} {key : String}
    (listed : key ∈ enrichment.map Prod.fst) : (Lib.Dict.get? enrichment key).isSome := by
  obtain ⟨⟨_, summary⟩, member, rfl⟩ := List.mem_map.mp listed
  exact Lib.Dict.get?_isSome_of_mem member

theorem mergeSummaryClaims_returns {deterministic enrichment : List (String × ArtifactSummary)}
    (known : ∀ item ∈ deterministic, item.1 ∈ enrichment.map Prod.fst) :
    ∃ merged, mergeSummaryClaims deterministic enrichment = .ok merged := by
  induction deterministic with
  | nil => exact ⟨[], rfl⟩
  | cons item rest ih =>
      obtain ⟨others, later⟩ := ih fun other member => known other (List.mem_cons_of_mem item member)
      obtain ⟨provided, found⟩ := Option.isSome_iff_exists.mp
        (get?_isSome_of_key (known item List.mem_cons_self))
      refine ⟨(item.1, ⟨item.2.version,
        mergeCitedItems SummaryClaim.identity item.2.claims provided.claims⟩) :: others, ?_⟩
      rw [mergeSummaryClaims, mapM_ok] at later ⊢
      refine .cons ?_ later
      simp only [found]

/-- A provider can put a document off or raise an overflow; in no other way does it stop the
manifest. -/
theorem manifest_raises {provider : Option (AnalysisProvider φ)} {error : ProcessingError}
    (raises : manifest runtime guardrail parsed source provider organizationId workspaceId =
      .error error) :
    error = .transientProcessingError "Provider enrichment temporarily unavailable" ∨
      error = .overflowError := by
  unfold manifest at raises
  cases provider with
  | none => cases raises
  | some analyze =>
      simp only at raises
      split at raises
      · cases raises
      · split at raises
        · cases raises
          exact .inl rfl
        · cases raises
        · split at raises
          · cases raises
            exact .inr rfl
          · cases raises
          · rename_i enriched valid
            obtain ⟨allowed, -, valid⟩ := bind_ok.mp valid
            obtain ⟨family, -, valid⟩ := bind_ok.mp valid
            obtain ⟨found, -, valid⟩ := bind_ok.mp valid
            obtain ⟨risky, -, valid⟩ := bind_ok.mp valid
            obtain ⟨written, both, valid⟩ := bind_ok.mp valid
            obtain ⟨origin, -, valid⟩ := bind_ok.mp valid
            cases valid
            have keys := summaryTypes_of_summaries both
            have known : ∀ item ∈ generateSummaries (blocksOf parsed), item.1 ∈
                (providerSummaries ⟨family, found, risky, written, origin⟩).map Prod.fst := by
              simpa [generateSummaries, providerSummaries, Function.comp_def, summaryTypes]
                using keys
            obtain ⟨merged, merges⟩ := mergeSummaryClaims_returns known
            simp [mergeProviderEnrichment, deterministicManifest, merges, bind, Except.bind]
              at raises

end Failures

section Sample

def sampleRuntime : Runtime Nat where
  zero := 0
  minimumConfidence := 8
  ofInt n := some (10 * n.toNat)
  lt a b := a < b
  le a b := a ≤ b
  nineTenths := 9
  one := 10
  casing := .ascii
  lower text := String.ofList (text.toList.map Char.toLower)

def sampleParsed : ParsedDocument :=
  ⟨"c", [⟨1, [⟨"a1", .paragraph, "Liability is capped.", 0, 20, "untrusted"⟩]⟩], []⟩

def sampleSource : SourceDocument := ⟨"k", "c", "text/plain"⟩

def sampleGuardrail : Guardrail := fun _ _ => ⟨.allow, [], "untrusted-evidence.v1"⟩

/-- A provider that files the block under another category than the rules do. -/
def sampleProvider : AnalysisProvider Nat := fun _ _ _ =>
  .ok
    { classification := .object [("family", .string "client_agreement"), ("confidence", .int 1),
        ("rationale", .string "liability"), ("citation_anchor_ids", .array [.string "a1"])]
      clauses := .array [.object [("category", .string "termination"),
        ("normalized_fields", .array []), ("source_excerpt", .string "capped"),
        ("confidence", .int 1), ("citation_anchor_ids", .array [.string "a1"])]]
      risks := .array []
      summaries := .object
        [("business", .object [("claim", .string "capped"),
          ("citation_anchor_ids", .array [.string "a1"])]),
        ("legal", .object [("claim", .string "is capped"),
          ("citation_anchor_ids", .array [.string "a1"])])]
      model := .string "m"
      inputTokens := .null
      outputTokens := .null
      latencyMs := .int 3 }

def sampleManifest (provider : Option (AnalysisProvider Nat)) :
    Except ProcessingError (Manifest Nat) :=
  manifest sampleRuntime sampleGuardrail sampleParsed sampleSource provider none none

/-- A provider that cannot be reached. -/
def absentProvider : AnalysisProvider Nat := fun _ _ _ => .error .transient

theorem manifest_raises_sample : ∃ error, sampleManifest (some absentProvider) = .error error ∧
    (error = .transientProcessingError "Provider enrichment temporarily unavailable" ∨
      error = .overflowError) := by
  have raises : manifest sampleRuntime sampleGuardrail sampleParsed sampleSource
      (some absentProvider) none none = .error (.transientProcessingError _) := rfl
  exact ⟨_, raises, manifest_raises raises⟩

theorem sampleManifest_some : ((sampleManifest (some sampleProvider)).toOption.map fun made =>
    made.clauses.map fun clause => clause.category) = some ["liability", "termination"] := by
  decide +kernel

def terminationRule : PlaybookRule :=
  ⟨.ofNat 1, .ofNat 2, "termination", "t", .required, some "capped", none, .high, "l", "g",
    ⟨.deterministic, false⟩⟩

theorem manifest_uninfluenced_sample : ∃ made made' : Manifest Nat,
    sampleManifest (some sampleProvider) = .ok made ∧ sampleManifest none = .ok made' ∧
      evaluatePlaybook sampleRuntime.toFloats sampleRuntime.casing none made.fields
          [terminationRule] =
        evaluatePlaybook sampleRuntime.toFloats sampleRuntime.casing none made'.fields
          [terminationRule] := by
  have alone : ∃ made', sampleManifest none = .ok made' := ⟨_, rfl⟩
  cases makes : sampleManifest (some sampleProvider) with
  | error e =>
      have some_ := sampleManifest_some
      rw [makes] at some_
      cases some_
  | ok made =>
      obtain ⟨made', makes'⟩ := alone
      exact ⟨made, made', rfl, makes', (manifest_uninfluenced [terminationRule] makes makes').2.2⟩

end Sample

end AgreementIntelligence.Analysis
