import AgreementIntelligence.Identity
import AgreementIntelligence.Lib.Json
import AgreementIntelligence.Lib.Text

/-! The AI configuration that a call of the worker runs under: the one promoted last in an
environment, one named by its id, or the built-in one. -/

namespace AgreementIntelligence.Indexing
open Identity Lib.Json Lib.Text

/-- What a handler raises. -/
inductive Raised where
  | valueError (message : String)
  | transientProcessing (message : String)
  | gatewayUnavailable (safeReason : String)
  | gatewayResponse
  | integrityError
  deriving DecidableEq, Repr

/-- `AIOperation.EMBEDDING` -/
def embeddingOperation : String := "embedding"

/-- `ResolvedAIConfiguration`, without the prompt and the schema, which embedding never reads. -/
structure ResolvedAIConfiguration (φ : Type) where
  operation : String
  version : String
  modelRoute : String
  parameters : List (String × Json φ)

variable {φ : Type}

/-- `ConfigurationResolver`: the loaders of a resolver. -/
structure ConfigurationResolver (φ : Type) where
  loader : (operation environment : String) → (organizationId workspaceId : Uuid) →
    Option (ResolvedAIConfiguration φ)
  configurationByIdLoader : (operation : String) → (configurationId : Uuid) →
    (organizationId workspaceId : Uuid) → Option (ResolvedAIConfiguration φ)

/-- `_BUILT_IN_CONFIGURATIONS` -/
def builtInConfiguration (operation : String) : ResolvedAIConfiguration φ where
  operation := operation
  version := "builtin." ++ operation ++ ".v1"
  modelRoute := "environment-default"
  parameters := []

def resolveConfiguration (resolver : ConfigurationResolver φ) (operation environment : String)
    (organizationId workspaceId : Uuid) : ResolvedAIConfiguration φ :=
  (resolver.loader operation environment organizationId workspaceId).getD
    (builtInConfiguration operation)

def resolveConfigurationById (resolver : ConfigurationResolver φ) (operation : String)
    (configurationId organizationId workspaceId : Uuid) : Option (ResolvedAIConfiguration φ) :=
  resolver.configurationByIdLoader operation configurationId organizationId workspaceId

def modelForRoute (configuration : ResolvedAIConfiguration φ) (fallbackModel endpointMode : String) :
    Except Raised String :=
  let (provider, separator, model) := partition configuration.modelRoute ':'
  if configuration.modelRoute = "environment-default" ∧
      startsWith configuration.version "builtin." then .ok fallbackModel
  else if separator ≠ "" ∧ provider = endpointMode ∧ model ≠ "" then .ok model
  else .error (.valueError "unsupported AI configuration route")

end AgreementIntelligence.Indexing
