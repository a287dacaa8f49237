import AgreementIntelligence.Indexing.EmbeddingSink

/-! The gateway that the worker embeds with: it asks the endpoint of its mode for the model of the
resolved configuration, and a hosted fallback when the endpoint is unavailable. -/

namespace AgreementIntelligence.Indexing
open Lib.Json

variable {φ : Type}

/-- `ModelGatewayConfiguration`, as embedding reads it. -/
structure ModelGatewayConfiguration where
  mode : String
  model : String
  fallbackModel : Option String
  deriving DecidableEq, Repr

/-- The options of `client.embeddings.create`. -/
structure EmbeddingOptions (φ : Type) where
  model : String
  input : List String
  dimensions : Nat
  parameters : List (String × Json φ)

structure EmbeddingAnswer (φ : Type) where
  vectors : List (List φ)
  inputTokens : Option Nat
  latencyMs : Nat

/-- The exceptions that `_gateway_error` tells apart. -/
inductive ClientError where
  | connection
  | apiStatus (code : Nat)
  | api
  | openAI
  | other
  deriving DecidableEq, Repr

/-- An endpoint, with what it gives for the `n`-th call. -/
abbrev EmbeddingClient (φ : Type) :=
  (n : Nat) → EmbeddingOptions φ → Except ClientError (EmbeddingAnswer φ)

def gatewayError : ClientError → Raised
  | .connection => .gatewayUnavailable "compatible_endpoint_unavailable"
  | .apiStatus code =>
    if 500 ≤ code ∨ code ∈ [408, 409, 429] then .gatewayUnavailable "endpoint_retryable_response"
    else .gatewayResponse
  | .api => .gatewayUnavailable "endpoint_unavailable"
  | .openAI => .gatewayResponse
  | .other => .gatewayResponse

/-- `encoding_format is None or encoding_format in {"float", "base64"}`; the test raises for a list
or an object, which are as little supported. -/
def encodingSupported (parameters : List (String × Json φ)) : Bool :=
  match get parameters "encoding_format" with
  | .null => true
  | .string text => text ∈ ["float", "base64"]
  | _ => false

def embeddingRequestParameters (configuration : ResolvedAIConfiguration φ) :
    Except Raised (List (String × Json φ)) :=
  if configuration.parameters.any fun parameter => parameter.1 ≠ "encoding_format" then
    .error (.valueError "AI embedding configuration contains unsupported parameters")
  else if encodingSupported configuration.parameters then .ok configuration.parameters
  else .error (.valueError "AI embedding encoding_format must be float or base64")

def embeddingOptions (model : String) (request : EmbeddingRequest φ)
    (parameters : List (String × Json φ)) : EmbeddingOptions φ where
  model := model
  input := request.inputs
  dimensions := request.dimensions
  parameters := parameters

/-- The response made of an answer, with its provenance. -/
def responseOf (mode model fallbackOutcome : String) (answer : EmbeddingAnswer φ) :
    EmbeddingResponse φ where
  vectors := answer.vectors
  provenance := {
    provider := if mode = "openai" then "openai" else "openai-compatible"
    model := model
    latencyMs := answer.latencyMs
    inputTokens := answer.inputTokens
    retryOutcome := "not_retried"
    fallbackOutcome := fallbackOutcome }

/-- `_fallback_embed` -/
def fallbackEmbed (configuration : ModelGatewayConfiguration)
    (fallbackClient : Option (EmbeddingClient φ)) (primaryReason : String) (n : Nat)
    (request : EmbeddingRequest φ) (parameters : List (String × Json φ)) :
    Except Raised (EmbeddingResponse φ) :=
  match fallbackClient, configuration.fallbackModel with
  | some client, some model =>
    match client n (embeddingOptions model request parameters) with
    | .ok answer => .ok (responseOf "openai" model "hosted_fallback_succeeded" answer)
    | .error _ => .error (.gatewayUnavailable "primary_and_fallback_unavailable")
  | _, _ => .error (.gatewayUnavailable primaryReason)

/-- `OpenAIModelGateway.embed`, for a request with a resolved configuration. -/
def embed (configuration : ModelGatewayConfiguration) (client : EmbeddingClient φ)
    (fallbackClient : Option (EmbeddingClient φ)) (n : Nat) (request : EmbeddingRequest φ) :
    Except Raised (EmbeddingResponse φ) := do
  let model ← modelForRoute request.resolvedConfiguration configuration.model configuration.mode
  let parameters ← embeddingRequestParameters request.resolvedConfiguration
  match client n (embeddingOptions model request parameters) with
  | .ok answer => .ok (responseOf configuration.mode model "not_needed" answer)
  | .error error =>
    match gatewayError error with
    | .gatewayUnavailable reason =>
      fallbackEmbed configuration fallbackClient reason n request parameters
    | raised => .error raised

def openAIModelGateway (configuration : ModelGatewayConfiguration) (client : EmbeddingClient φ)
    (fallbackClient : Option (EmbeddingClient φ)) : EmbeddingGateway φ where
  mode := some configuration.mode
  embed := embed configuration client fallbackClient

/-- An endpoint that answers every call with a vector of the dimensions for each input. -/
structure AnsweringClient (φ : Type) where
  answer : (n : Nat) → EmbeddingOptions φ → EmbeddingAnswer φ
  counts : ∀ n options, (answer n options).vectors.length = options.input.length
  fits : ∀ n options, ∀ vector ∈ (answer n options).vectors, vector.length = options.dimensions

def AnsweringClient.client (endpoint : AnsweringClient φ) : EmbeddingClient φ :=
  fun n options => .ok (endpoint.answer n options)

/-- A gateway of such an endpoint gives what was asked for, by the model of the configuration. -/
theorem embed_answering {configuration : ModelGatewayConfiguration} {endpoint : AnsweringClient φ}
    {fallbackClient : Option (EmbeddingClient φ)} {n : Nat} {request : EmbeddingRequest φ} :
    (∃ message, embed configuration endpoint.client fallbackClient n request =
      .error (.valueError message)) ∨
    ∃ response model, embed configuration endpoint.client fallbackClient n request = .ok response ∧
      modelForRoute request.resolvedConfiguration configuration.model configuration.mode = .ok model ∧
      response.provenance.model = model ∧ response.vectors.length = request.inputs.length ∧
      ∀ vector ∈ response.vectors, vector.length = request.dimensions := by
  simp only [embed]
  cases routed : modelForRoute request.resolvedConfiguration configuration.model
      configuration.mode with
  | error raised =>
      refine .inl ⟨"unsupported AI configuration route", ?_⟩
      simp only [modelForRoute] at routed
      split at routed
      · cases routed
      · split at routed
        · cases routed
        · cases routed
          rfl
  | ok model =>
      cases supported : embeddingRequestParameters request.resolvedConfiguration with
      | error raised =>
          simp only [embeddingRequestParameters] at supported
          split at supported
          · cases supported
            exact .inl ⟨_, rfl⟩
          · split at supported
            · cases supported
            · cases supported
              exact .inl ⟨_, rfl⟩
      | ok parameters =>
          refine .inr ⟨_, model, rfl, rfl, rfl, ?_, ?_⟩
          · exact endpoint.counts n (embeddingOptions model request parameters)
          · exact endpoint.fits n (embeddingOptions model request parameters)

end AgreementIntelligence.Indexing
