import AgreementIntelligence.AiConfig.Service

/-! What publication accepts, and what the gateway then makes of it. Both check the parameters of a
configuration, each in its own words; the gateway takes no missing temperature for a number, and
publication asks for the hash of an encoding format. -/

namespace AgreementIntelligence.AiConfig
open Lib.Json Lib.Text Indexing

variable {φ : Type}

/-- The provider of a route, which is to be the endpoint mode of the gateway. -/
def provider (record : AIConfigurationVersionRecord φ) : String :=
  (partition record.modelRoute ':').1

def hasParameter (parameters : List (String × Json φ)) (name : String) : Bool :=
  parameters.any fun parameter => parameter.1 = name

def isNumber : Json φ → Bool
  | .int _ => true
  | .float _ => true
  | _ => false

/-- The parameters of a chat that the gateway takes. -/
def modeParameters (endpointMode : String) : List String :=
  if endpointMode = "openai-compatible" then ["temperature", "max_tokens"]
  else ["temperature", "max_output_tokens"]

/-- `_request_parameters` -/
def requestParameters (configuration : ResolvedAIConfiguration φ) (endpointMode : String) :
    Except Raised (List (String × Json φ)) :=
  let parameters := configuration.parameters
  if parameters.isEmpty then .ok []
  else if ¬ onlyParameters parameters (modeParameters endpointMode) then
    .error (.valueError "AI configuration contains unsupported provider parameters")
  else if hasParameter parameters "temperature" ∧ ¬ isNumber (get parameters "temperature") then
    .error (.valueError "AI configuration temperature must be numeric")
  else if ¬ positiveTokens parameters then
    .error (.valueError ("AI configuration " ++
      (if endpointMode = "openai-compatible" then "max_tokens" else "max_output_tokens") ++
        " must be a positive integer"))
  else .ok parameters

/-- The parameters that the gateway calls the endpoint with for an operation. -/
def gatewayParameters (configuration : ResolvedAIConfiguration φ) (endpointMode : String) :
    Except Raised (List (String × Json φ)) :=
  if configuration.operation = embeddingOperation then embeddingRequestParameters configuration
  else requestParameters configuration endpointMode

/-! The checks of publication, one by one -/

/-- The route names a provider that is supported, and a model. -/
def SupportedRoute (record : AIConfigurationVersionRecord φ) : Prop :=
  (partition record.modelRoute ':').2.1 = ":" ∧
    provider record ∈ ["openai", "openai-compatible"] ∧
      strip (partition record.modelRoute ':').2.2 ≠ ""

/-- The prompt, the schema and the checksums of a draft are in order. -/
def DraftInOrder (env : ServiceEnv φ) (record : AIConfigurationVersionRecord φ) : Prop :=
  ¬ (strip record.promptTemplate = "" ∨ record.schemaJson.isEmpty ∨ strip record.modelRoute = "" ∨
    record.promptChecksum ≠ checksumOf record.promptTemplate ∨
      record.schemaChecksum ≠ checksumOf (canonicalJson env record.schemaJson)) ∧
    env.checkSchema (.object record.schemaJson) = true

section Record
variable {env : ServiceEnv φ} {record : AIConfigurationVersionRecord φ}

theorem supported_of_no_route (unsupported : ¬ SupportedRoute record) :
    supportedRuntimeConfiguration record = some false := by
  have refused : (partition record.modelRoute ':').2.1 ≠ ":" ∨
      provider record ∉ ["openai", "openai-compatible"] ∨
        strip (partition record.modelRoute ':').2.2 = "" := by
    by_contra supports
    push Not at supports
    exact unsupported supports
  exact if_pos refused

theorem SupportedRoute.not_refused (route : SupportedRoute record) :
    ¬ ((partition record.modelRoute ':').2.1 ≠ ":" ∨
      provider record ∉ ["openai", "openai-compatible"] ∨
        strip (partition record.modelRoute ':').2.2 = "") := by
  rintro (separator | named | model)
  · exact separator route.1
  · exact named route.2.1
  · exact route.2.2 model

theorem supported_embedding (route : SupportedRoute record)
    (embeds : record.operation = embeddingOperation) :
    supportedRuntimeConfiguration record =
      if onlyParameters record.parametersJson ["encoding_format"] then
        encodingFormat record.parametersJson
      else some false := by
  have passes := route.not_refused
  exact (if_neg passes).trans (if_pos embeds)

theorem supported_chat (route : SupportedRoute record)
    (chats : record.operation ≠ embeddingOperation) :
    supportedRuntimeConfiguration record =
      some (onlyParameters record.parametersJson (providerParameters (provider record)) &&
        isTemperature (get record.parametersJson "temperature") &&
          positiveTokens record.parametersJson) := by
  have passes := route.not_refused
  exact (if_neg passes).trans (if_neg chats)

/-- A draft that is not in order is refused before its parameters are looked at. -/
theorem ensureValid_of_disorder (disorder : ¬ DraftInOrder env record) :
    ∃ code, ensureValid env record = .error (.http 422 code) := by
  rw [ensureValid]
  split
  · exact ⟨_, rfl⟩
  · rename_i drafted
    split
    · exact ⟨_, rfl⟩
    · rename_i checked
      exact absurd ⟨drafted, not_not.mp checked⟩ disorder

theorem ensureValid_of_order (order : DraftInOrder env record) :
    ensureValid env record = match supportedRuntimeConfiguration record with
      | none => .error .typeError
      | some false => .error (.http 422 "unsupported_ai_configuration")
      | some true => .ok () := by
  rw [ensureValid]
  exact (if_neg order.1).trans (if_neg (not_not_intro order.2))

/-- The gateway routes to the model of a route that publication supports. -/
theorem modelForRoute_of_route (route : SupportedRoute record) (fallbackModel : String) :
    ∃ model, modelForRoute (snapshot record) fallbackModel (provider record) = .ok model := by
  have named : (partition record.modelRoute ':').2.1 ≠ "" ∧ provider record = provider record ∧
      (partition record.modelRoute ':').2.2 ≠ "" := by
    refine ⟨?_, rfl, fun empty => route.2.2 ?_⟩
    · rw [route.1]
      decide
    · rw [empty]
      rfl
  by_cases builtin : record.modelRoute = "environment-default" ∧
      startsWith record.version "builtin."
  · exact ⟨fallbackModel, if_pos builtin⟩
  · exact ⟨_, (if_neg builtin).trans (if_pos named)⟩

theorem providerParameters_eq (route : SupportedRoute record) :
    providerParameters (provider record) = modeParameters (provider record) := by
  have named := route.2.1
  simp only [List.mem_cons, List.not_mem_nil, or_false] at named
  rcases named with openai | compatible
  · rw [openai]
    rfl
  · rw [compatible]
    rfl

/-- A value that Python cannot look up in a set. -/
def Unhashable (value : Json φ) : Prop :=
  (∃ items, value = .array items) ∨ ∃ fields, value = .object fields

theorem encodingFormat_eq_none_iff {parameters : List (String × Json φ)} :
    encodingFormat parameters = none ↔ Unhashable (get parameters "encoding_format") := by
  rw [encodingFormat, Unhashable]
  cases get parameters "encoding_format" <;> simp [inTexts]

theorem encodingSupported_of_format {parameters : List (String × Json φ)}
    (supported : encodingFormat parameters = some true) :
    encodingSupported parameters = true := by
  rw [encodingFormat] at supported
  rw [encodingSupported]
  cases found : get parameters "encoding_format" <;> simp_all [inTexts]

end Record

section Agreement
variable (env : ServiceEnv φ) (record : AIConfigurationVersionRecord φ)

/-- What publication accepts the gateway accepts, and what publication does not accept it rejects
with a 422. -/
structure PublicationAgrees : Prop where
  accepts : supportedRuntimeConfiguration record = some true → ∀ fallbackModel,
    (∃ model, modelForRoute (snapshot record) fallbackModel (provider record) = .ok model) ∧
      ∃ parameters, gatewayParameters (snapshot record) (provider record) = .ok parameters
  rejects : supportedRuntimeConfiguration record ≠ some true →
    ∃ code, ensureValid env record = .error (.http 422 code)

/-- The configuration of a chat whose only flaw is a temperature that is given as `null`. -/
structure NullTemperature : Prop where
  route : SupportedRoute record
  chats : record.operation ≠ embeddingOperation
  only : onlyParameters record.parametersJson (providerParameters (provider record)) = true
  tokens : positiveTokens record.parametersJson = true
  given : hasParameter record.parametersJson "temperature" = true
  null : get record.parametersJson "temperature" = .null

/-- An embedding configuration whose only flaw is an encoding format that is a list or an object. -/
structure UnhashableFormat : Prop where
  order : DraftInOrder env record
  route : SupportedRoute record
  embeds : record.operation = embeddingOperation
  only : onlyParameters record.parametersJson ["encoding_format"] = true
  unhashable : Unhashable (get record.parametersJson "encoding_format")

end Agreement

section Agreement
variable {env : ServiceEnv φ} {record : AIConfigurationVersionRecord φ}

/-- Publication accepts a missing temperature that is spelt out, and the gateway does not. -/
theorem NullTemperature.disagrees (flaw : NullTemperature record) :
    supportedRuntimeConfiguration record = some true ∧
      ∀ parameters, gatewayParameters (snapshot record) (provider record) ≠ .ok parameters := by
  constructor
  · rw [supported_chat flaw.route flaw.chats, flaw.only, flaw.null, flaw.tokens]
    rfl
  · intro parameters returned
    have some_ : record.parametersJson.isEmpty = false := by
      cases found : record.parametersJson with
      | nil =>
          have given := flaw.given
          rw [found] at given
          cases given
      | cons first rest => rfl
    have only : onlyParameters record.parametersJson (modeParameters (provider record)) = true := by
      rw [← providerParameters_eq flaw.route]
      exact flaw.only
    have missing : isNumber (get record.parametersJson "temperature") = false := by
      rw [flaw.null]
      rfl
    have built : gatewayParameters (snapshot record) (provider record) =
        requestParameters (snapshot record) (provider record) := if_neg flaw.chats
    rw [built] at returned
    simp [requestParameters, snapshot, some_, only, flaw.given, missing] at returned

/-- Publication raises what is no answer for a format that has no hash. -/
theorem UnhashableFormat.raises (flaw : UnhashableFormat env record) :
    supportedRuntimeConfiguration record = none ∧ ensureValid env record = .error .typeError := by
  have none : supportedRuntimeConfiguration record = none := by
    rw [supported_embedding flaw.route flaw.embeds, if_pos flaw.only, encodingFormat_eq_none_iff]
    exact flaw.unhashable
  exact ⟨none, by rw [ensureValid_of_order flaw.order, none]⟩

theorem route_of_supported (supported : supportedRuntimeConfiguration record ≠ some false) :
    SupportedRoute record := by
  by_contra unsupported
  exact supported (supported_of_no_route unsupported)

/-- Nothing but a format without a hash makes the check of publication raise. -/
theorem unhashableFormat_of_none (order : DraftInOrder env record) (route : SupportedRoute record)
    (raises : supportedRuntimeConfiguration record = none) : UnhashableFormat env record := by
  by_cases embeds : record.operation = embeddingOperation
  · rw [supported_embedding route embeds] at raises
    split at raises
    · rename_i only
      exact ⟨order, route, embeds, only, encodingFormat_eq_none_iff.mp raises⟩
    · cases raises
  · rw [supported_chat route embeds] at raises
    cases raises

/-- The gateway builds the parameters of a configuration that publication accepts, but for a
temperature that is given as `null`. -/
theorem gatewayParameters_of_supported (flawless : ¬ NullTemperature record)
    (supported : supportedRuntimeConfiguration record = some true) :
    ∃ parameters, gatewayParameters (snapshot record) (provider record) = .ok parameters := by
  have route : SupportedRoute record := route_of_supported (by simp [supported])
  rw [gatewayParameters]
  by_cases embeds : record.operation = embeddingOperation
  · rw [supported_embedding route embeds] at supported
    split at supported
    · rename_i only
      have format := encodingSupported_of_format supported
      have known : (record.parametersJson.any fun parameter =>
          parameter.1 ≠ "encoding_format") = false := by
        simpa [onlyParameters, List.all_eq_true] using only
      exact ⟨record.parametersJson, (if_pos embeds).trans
        ((if_neg (Bool.eq_false_iff.mp known)).trans (if_pos format))⟩
    · cases supported
  · rw [supported_chat route embeds] at supported
    simp only [Option.some.injEq, Bool.and_eq_true] at supported
    obtain ⟨⟨only, temperature⟩, tokens⟩ := supported
    have numeric : hasParameter record.parametersJson "temperature" = true →
        isNumber (get record.parametersJson "temperature") = true := by
      intro given
      cases found : get record.parametersJson "temperature" with
      | null => exact absurd ⟨route, embeds, only, tokens, given, found⟩ flawless
      | int value => rfl
      | float value => rfl
      | _ =>
          rw [found] at temperature
          cases temperature
    rw [providerParameters_eq route] at only
    by_cases empty : record.parametersJson.isEmpty = true
    · exact ⟨[], (if_neg embeds).trans (if_pos empty)⟩
    · refine ⟨record.parametersJson, (if_neg embeds).trans ?_⟩
      simp only [Bool.not_eq_true] at empty
      simpa [requestParameters, snapshot, empty, only, tokens] using numeric

/-- The two agree exactly on configurations that have neither of the flaws. -/
theorem publicationAgrees_iff : PublicationAgrees env record ↔
    ¬ NullTemperature record ∧ ¬ UnhashableFormat env record := by
  constructor
  · intro agrees
    refine ⟨fun flaw => ?_, fun flaw => ?_⟩
    · obtain ⟨supported, refuses⟩ := flaw.disagrees
      obtain ⟨-, parameters, returned⟩ := agrees.accepts supported ""
      exact refuses parameters returned
    · obtain ⟨none, raises⟩ := flaw.raises
      obtain ⟨code, refused⟩ := agrees.rejects (by simp [none])
      rw [raises] at refused
      cases refused
  · rintro ⟨temperature, format⟩
    refine
      { accepts := fun supported fallbackModel => ?_
        rejects := fun unsupported => ?_ }
    · have route : SupportedRoute record := route_of_supported (by simp [supported])
      exact ⟨modelForRoute_of_route route fallbackModel,
        gatewayParameters_of_supported temperature supported⟩
    · by_cases order : DraftInOrder env record
      · rw [ensureValid_of_order order]
        cases found : supportedRuntimeConfiguration record with
        | none =>
            have route : SupportedRoute record := route_of_supported (by simp [found])
            exact absurd (unhashableFormat_of_none order route found) format
        | some supported =>
            cases supported with
            | false => exact ⟨_, rfl⟩
            | true => exact absurd found unsupported
      · exact ensureValid_of_disorder order

end Agreement

/-! One configuration with each of the flaws -/

def plainEnv : ServiceEnv Empty where
  floatText := nofun
  checkSchema _ := true
  environment := "local"

/-- A draft in order, with some parameters. -/
def plainDraft (operation : String) (parameters : List (String × Json Empty)) :
    AIConfigurationVersionRecord Empty where
  id := Identity.Uuid.ofNat 1
  organizationId := Identity.Uuid.ofNat 2
  workspaceId := Identity.Uuid.ofNat 3
  operation := operation
  version := "v2"
  promptTemplate := "Answer from the evidence."
  promptChecksum := checksumOf "Answer from the evidence."
  schemaJson := [("type", .string "object")]
  schemaChecksum := checksumOf (canonicalJson plainEnv [("type", .string "object")])
  modelRoute := "openai:gpt-4o-mini"
  parametersJson := parameters
  status := .draft

theorem not_publicationAgrees :
    ¬ PublicationAgrees plainEnv (plainDraft "grounded_qa" [("temperature", .null)]) ∧
      ¬ PublicationAgrees plainEnv
        (plainDraft "embedding" [("encoding_format", .array [.string "float"])]) := by
  constructor
  · intro agrees
    obtain ⟨-, parameters, returned⟩ := agrees.accepts (by decide +kernel) "gpt-4o-mini"
    cases returned
  · intro agrees
    have raises : supportedRuntimeConfiguration
        (plainDraft "embedding" [("encoding_format", .array [.string "float"])]) = none := by
      decide +kernel
    have order : DraftInOrder plainEnv
        (plainDraft "embedding" [("encoding_format", .array [.string "float"])]) := by
      refine ⟨?_, rfl⟩
      simp [plainDraft]
      decide +kernel
    obtain ⟨code, refused⟩ := agrees.rejects (by simp [raises])
    rw [ensureValid_of_order order, raises] at refused
    cases refused

end AgreementIntelligence.AiConfig
