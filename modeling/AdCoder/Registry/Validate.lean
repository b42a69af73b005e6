import AdCoder.Registry.Headers

/-!
# Validation of a registry

Declared providers and models become settled ones: windows, prices and endpoints are taken from
what the operator declared, from the catalog, or from the built-in default.
-/

namespace AdCoder.Registry

open Foundation
open Profiles (ofText? listed)

/-- `DEFAULT_CONTEXT_WINDOW`. -/
def defaultContextWindow : Rat := 200000

/-- The provenance that an earlier validation settled. -/
structure SettledWindow where
  source : Option ContextWindowSource
  catalog : Option Rat
  deriving DecidableEq

def finite? : Option Json → Option Rat
  | some (.num (.finite q)) => some q
  | _ => none

def settledWindowProvenance (declared : List (String × Json)) : SettledWindow where
  source := ofText? contextWindowSources ContextWindowSource.text
    (Json.lookup "contextWindowSource" declared)
  catalog := finite? (Json.lookup "catalogContextWindow" declared)

/-! ## Fields -/

/-- A field that may be undefined. -/
def whenPresent {α : Type} (read : Json → Except RegistryError α) :
    Option Json → Except RegistryError (Option α)
  | none => .ok none
  | some value => (read value).map some

def nonEmptyString (error : RegistryError) : Option Json → Except RegistryError String
  | some (.str s) => if s != "" then .ok s else .error error
  | _ => .error error

/-- `assertPositiveNumber`. -/
def assertPositiveNumber (field : String) : Option Json → Except RegistryError Rat
  | some (.num (.finite q)) =>
      if 0 < q then .ok q
      else .error (invalidConfig field (field ++ " must be a positive finite number"))
  | _ => .error (invalidConfig field (field ++ " must be a positive finite number"))

def boolean (error : RegistryError) : Json → Except RegistryError Bool
  | .bool b => .ok b
  | _ => .error error

def assertHttpsUrl (host : RegistryHost) (field : String) (value : Option Json) :
    Except RegistryError String := do
  let raw ← nonEmptyString (invalidConfig field (field ++ " must be a non-empty string")) value
  match host.parseUrl raw with
  | none => throw (invalidConfig field (field ++ " is not a valid absolute URL: " ++ raw))
  | some url => do
      require (url.protocol == "https:")
        (invalidConfig field (field ++ " must use the https scheme: " ++ raw))
      require (url.username == "" && url.password == "")
        (invalidConfig field (field ++ " must not embed userinfo (user:pass@host): " ++ raw))
      return raw

def costField (modelName : String) (record : List (String × Json)) (field : String) :
    Except RegistryError Rat :=
  match finite? (Json.lookup field record) with
  | some q => .ok q
  | none => .error (invalidConfig (modelName ++ ".cost." ++ field)
      ("model.cost." ++ field ++ " must be a finite number"))

def parseCost (modelName : String) : Option Json → Except RegistryError Cost
  | some (.obj record) => do
      let input ← costField modelName record "input"
      let output ← costField modelName record "output"
      let cacheRead ← costField modelName record "cacheRead"
      let cacheWrite ← costField modelName record "cacheWrite"
      return { input, output, cacheRead, cacheWrite }
  | _ => .error (invalidConfig (modelName ++ ".cost") "model.cost must be an object")

def parseCredential (providerId : String) : Option Json → Except RegistryError CredentialSource
  | some (.obj record) =>
      match Json.asString? (Json.lookup "kind" record) with
      | some "oauth" => .ok .oauth
      | some "env-var" => (nonEmptyString (invalidConfig (providerId ++ ".credential.envVar")
          "an env-var credential requires a non-empty envVar name")
          (Json.lookup "envVar" record)).map .envVar
      | _ => .error (invalidConfig (providerId ++ ".credential.kind")
          "provider.credential.kind must be 'env-var' or 'oauth'")
  | _ => .error (invalidConfig (providerId ++ ".credential") "provider.credential must be an object")

def parseApi (error : RegistryError) (value : Option Json) : Except RegistryError ApiKind :=
  match ofText? apiKinds ApiKind.text value with
  | some api => .ok api
  | none => .error error

/-- The modalities that the items of an array name, if each of them names one. -/
def modalities? : List Json → Option (List Modality)
  | [] => some []
  | item :: rest => do
      let modality ← ofText? modalities Modality.name (some item)
      let others ← modalities? rest
      return modality :: others

def parseInput (modelName : String) (value : Json) : Except RegistryError (List Modality) :=
  let error := invalidConfig (modelName ++ ".input")
    "model.input must be a non-empty unique array containing only \"text\" and \"image\""
  match value with
  | .arr items =>
      match modalities? items with
      | some input => if input ≠ [] ∧ input.Nodup then .ok input else .error error
      | none => .error error
  | _ => .error error

def parseCompat (modelName : String) : Json → Except RegistryError (List (String × Json))
  | .obj fields => .ok fields
  | _ => .error (invalidConfig (modelName ++ ".compat") "model.compat must be an object when present")

/-! ## Models -/

/-- `record.catalog === false`. -/
def optsOut (record : List (String × Json)) : Bool :=
  match Json.lookup "catalog" record with
  | some (.bool false) => true
  | _ => false

def parseModelOverrides (host : RegistryHost) (record : List (String × Json))
    (name modelId : String) : Except RegistryError ModelConfig := do
  let field (key : String) := Json.lookup key record
  let contextWindow ← whenPresent
    (fun v => assertPositiveNumber (name ++ ".contextWindow") (some v)) (field "contextWindow")
  let maxTokens ← whenPresent
    (fun v => assertPositiveNumber (name ++ ".maxTokens") (some v)) (field "maxTokens")
  let reasoning ← whenPresent (boolean (invalidConfig (name ++ ".reasoning")
    "model.reasoning must be a boolean when present")) (field "reasoning")
  let input ← whenPresent (parseInput name) (field "input")
  let api ← whenPresent (fun v => parseApi ⟨.unsupportedApi, name, "model \"" ++ name ++
    "\" api override must be one of " ++ listed apiKinds ApiKind.text⟩ (some v)) (field "api")
  let compat ← whenPresent (parseCompat name) (field "compat")
  let baseUrl ← whenPresent (fun v => assertHttpsUrl host (name ++ ".baseUrl") (some v))
    (field "baseUrl")
  let headers ← parseHeaders name (field "headers")
  let cost ← whenPresent (fun v => parseCost name (some v)) (field "cost")
  return {
    name, modelId, contextWindow, maxTokens, reasoning, input, cost, api, baseUrl, headers, compat
    optedOut := optsOut record }

/-- `Math.min(entry.contextWindow, DEFAULT_CONTEXT_WINDOW)`. -/
def clampedWindow (window : Rat) : Rat :=
  if defaultContextWindow < window then defaultContextWindow else window

/-- The window that a catalog would have given, where the clamp discarded it. -/
def discardedWindow (declared : ModelConfig) (entry : CatalogModel) : Option Rat :=
  if declared.contextWindow.isNone ∧ defaultContextWindow < entry.contextWindow then
    some entry.contextWindow
  else none

def catalogSource (declared : ModelConfig) (entry : CatalogModel) : ContextWindowSource :=
  if declared.contextWindow.isSome then .declared
  else if defaultContextWindow < entry.contextWindow then .catalogClamped
  else .catalog

def addName (seen : List String) (name : String) : Except RegistryError Unit :=
  require (!seen.contains name) ⟨.duplicateModel, name,
    "model name \"" ++ name ++ "\" is declared more than once across providers"⟩

/-- The fields of a catalog-backed model; a declared field wins. -/
def catalogModel (entry : CatalogModel) (declared : ModelConfig) (carried : SettledWindow) :
    ResolvedModelConfig where
  name := declared.name
  modelId := declared.modelId
  contextWindow := declared.contextWindow.getD (clampedWindow entry.contextWindow)
  contextWindowSource := carried.source.getD (catalogSource declared entry)
  catalogContextWindow := carried.catalog.or (discardedWindow declared entry)
  maxTokens := declared.maxTokens.getD entry.maxTokens
  reasoning := some (declared.reasoning.getD entry.reasoning)
  input := some (declared.input.getD entry.input)
  cost := declared.cost.getD entry.cost
  api := some entry.api
  baseUrl := some (declared.baseUrl.getD entry.baseUrl)
  headers := declared.headers
  optedOut := declared.optedOut
  compat := declared.compat
  thinkingLevelMap := entry.thinkingLevelMap
  catalogCompat := entry.compat

def fromCatalog (entry : CatalogModel) (declared : ModelConfig) (providerId : String)
    (seen : List String) (carried : SettledWindow) :
    Except RegistryError ResolvedModelConfig := do
  addName seen declared.name
  require (declared.api.all fun api => api == entry.api) ⟨.unsupportedApi, declared.name,
    "model \"" ++ declared.name ++ "\" declares api \"" ++ (declared.api.map (·.text)).getD "" ++
      "\" but catalog \"" ++ providerId ++ "\" publishes it as \"" ++ entry.api.text ++ "\""⟩
  return catalogModel entry declared carried

/-- The fields of a model whose window, ceiling and prices no catalog supplies. -/
def declaredModel (declared : ModelConfig) (maxTokens : Rat) (cost : Cost)
    (carried : SettledWindow) : ResolvedModelConfig where
  name := declared.name
  modelId := declared.modelId
  contextWindow := declared.contextWindow.getD defaultContextWindow
  contextWindowSource := carried.source.getD
    (if declared.contextWindow.isSome then .declared else .builtInDefault)
  catalogContextWindow := none
  maxTokens
  reasoning := declared.reasoning
  input := declared.input
  cost
  api := declared.api
  baseUrl := declared.baseUrl
  headers := declared.headers
  optedOut := declared.optedOut
  compat := declared.compat
  thinkingLevelMap := none
  catalogCompat := none

/-- The part of `parseModel` for a model that the catalog publishes. -/
def parseCatalogModel (host : RegistryHost) (providerId : String) (catalog : Catalog)
    (seen : List String) (record : List (String × Json)) (name modelId : String) :
    Except RegistryError ResolvedModelConfig :=
  match OrderedMap.get? catalog modelId with
  | none => .error ⟨.unknownModel, providerId ++ ".model.modelId",
      "provider \"" ++ providerId ++ "\" admits model \"" ++ modelId ++
        "\", which its catalog does not publish as a resolvable model; declare " ++
        "\"catalog\": false on that model to supply its cost and maxTokens by hand"⟩
  | some entry => do
      let declared ← parseModelOverrides host record name modelId
      fromCatalog entry declared providerId seen (settledWindowProvenance record)

/-- The part of `parseModel` for a model that is declared by hand. -/
def parseDeclaredModel (host : RegistryHost) (seen : List String) (record : List (String × Json))
    (name modelId : String) : Except RegistryError ResolvedModelConfig := do
  addName seen name
  let maxTokens ← assertPositiveNumber (name ++ ".maxTokens") (Json.lookup "maxTokens" record)
  let cost ← parseCost name (Json.lookup "cost" record)
  let declared ← parseModelOverrides host record name modelId
  return declaredModel declared maxTokens cost (settledWindowProvenance record)

/-- `record.name ?? (catalog !== undefined ? modelId : undefined)`. -/
def nameValue (catalog : Option Catalog) (modelId : String) : Option Json → Option Json
  | none | some .null => if catalog.isSome then some (.str modelId) else none
  | value => value

/-- The marker of a model that the catalog does not publish. -/
def checkMarker (providerId : String) (catalog : Option Catalog) (record : List (String × Json))
    (name : String) : Except RegistryError Unit := do
  require ((Json.lookup "catalog" record).isNone || optsOut record)
    (invalidConfig (name ++ ".catalog")
      "model.catalog may only be false, marking a model the provider catalog does not publish")
  require (!(optsOut record && catalog.isNone)) (invalidConfig (name ++ ".catalog")
    ("model \"" ++ name ++ "\" sets catalog false, but provider \"" ++ providerId ++
      "\" declares no catalog to opt out of"))

def parseModel (host : RegistryHost) (providerId : String) (catalog : Option Catalog)
    (seen : List String) : Json → Except RegistryError ResolvedModelConfig
  | .obj record => do
      let modelId ← nonEmptyString (invalidConfig (providerId ++ ".model.modelId")
        "model.modelId must be a non-empty string") (Json.lookup "modelId" record)
      let name ← nonEmptyString (invalidConfig (providerId ++ ".model.name")
        "model.name must be a non-empty string")
        (nameValue catalog modelId (Json.lookup "name" record))
      checkMarker providerId catalog record name
      match catalog.filter fun _ => !optsOut record with
      | some entries => parseCatalogModel host providerId entries seen record name modelId
      | none => parseDeclaredModel host seen record name modelId
  | _ => .error (invalidConfig (providerId ++ ".model") "each model must be an object")

def parseModels (host : RegistryHost) (providerId : String) (catalog : Option Catalog) :
    List String → List Json → Except RegistryError (List ResolvedModelConfig)
  | _, [] => .ok []
  | seen, item :: rest => do
      let model ← parseModel host providerId catalog seen item
      let models ← parseModels host providerId catalog (seen ++ [model.name]) rest
      return model :: models

/-- A model of a catalog that is admitted whole. -/
def undeclared (entry : CatalogModel) : ModelConfig where
  name := entry.modelId
  modelId := entry.modelId
  contextWindow := none
  maxTokens := none
  reasoning := none
  input := none
  cost := none
  api := none
  baseUrl := none
  headers := none
  optedOut := false
  compat := none

def admitCatalog (providerId : String) :
    List String → List CatalogModel → Except RegistryError (List ResolvedModelConfig)
  | _, [] => .ok []
  | seen, entry :: rest => do
      let model ← fromCatalog entry (undeclared entry) providerId seen ⟨none, none⟩
      let models ← admitCatalog providerId (seen ++ [model.name]) rest
      return model :: models

/-! ## Providers -/

def parseCatalogName (host : RegistryHost) (providerId : String) (value : Json) :
    Except RegistryError (String × Catalog) := do
  let name ← nonEmptyString (invalidConfig (providerId ++ ".catalog")
    "provider.catalog must be a non-empty string when present") (some value)
  match host.catalogModels name with
  | some catalog => return (name, catalog)
  | none => throw ⟨.unknownCatalog, providerId ++ ".catalog", "provider \"" ++ providerId ++
      "\" names catalog \"" ++ name ++ "\", which ships no resolvable model; available: " ++
      ", ".intercalate host.catalogNames⟩

/-- The base URL is required where no catalog model carries one. -/
def parseBaseUrl (host : RegistryHost) (providerId : String) (catalog : Option Catalog)
    (value : Option Json) : Except RegistryError (Option String) :=
  if catalog.isNone || value.isSome then
    (assertHttpsUrl host (providerId ++ ".baseUrl") value).map some
  else .ok none

def providerModels (host : RegistryHost) (providerId : String) (catalog : Option Catalog)
    (seen : List String) : Option Json → Except RegistryError (List ResolvedModelConfig)
  | some (.arr (item :: items)) => parseModels host providerId catalog seen (item :: items)
  | some _ => .error (invalidConfig (providerId ++ ".models")
      ("provider \"" ++ providerId ++ "\" models must be a non-empty array when present"))
  | none =>
      match catalog with
      | some entries => admitCatalog providerId seen (entries.map (·.2))
      | none => .error (invalidConfig (providerId ++ ".models")
          ("provider \"" ++ providerId ++ "\" must declare a non-empty models array, or a " ++
            "catalog to take models from"))

/-- `providerBaseUrl`: the declared one, or that of the first model which has one. -/
def settledBaseUrl (providerId : String) (baseUrl : Option String)
    (models : List ResolvedModelConfig) : Except RegistryError String :=
  match baseUrl.or (models.findSome? (·.baseUrl)) with
  | some url => .ok url
  | none => .error (invalidConfig (providerId ++ ".baseUrl")
      ("provider \"" ++ providerId ++ "\" declares no baseUrl and no model supplies one; a " ++
        "catalog provider whose models all set \"catalog\": false must declare provider.baseUrl"))

def parseProvider (host : RegistryHost) (ids names : List String) :
    Json → Except RegistryError ResolvedProviderConfig
  | .obj record => do
      let id ← nonEmptyString (invalidConfig "provider.id" "provider.id must be a non-empty string")
        (Json.lookup "id" record)
      require (!ids.contains id) ⟨.duplicateProvider, id,
        "provider id \"" ++ id ++ "\" is declared more than once"⟩
      let displayName ← whenPresent (fun
        | .str s => .ok s
        | _ => .error (invalidConfig (id ++ ".displayName")
            "provider.displayName must be a string when present")) (Json.lookup "displayName" record)
      let api ← parseApi ⟨.unsupportedApi, id, "provider \"" ++ id ++ "\" api must be one of " ++
        listed apiKinds ApiKind.text⟩ (Json.lookup "api" record)
      let catalog ← whenPresent (parseCatalogName host id) (Json.lookup "catalog" record)
      let declaredUrl ← parseBaseUrl host id (catalog.map (·.2)) (Json.lookup "baseUrl" record)
      let credential ← parseCredential id (Json.lookup "credential" record)
      let headers ← parseHeaders id (Json.lookup "headers" record)
      let models ← providerModels host id (catalog.map (·.2)) names (Json.lookup "models" record)
      let baseUrl ← settledBaseUrl id declaredUrl models
      return { id, displayName, api, baseUrl, credential, catalog := catalog.map (·.1), headers, models }
  | _ => .error (invalidConfig "provider" "each provider must be an object")

def parseProviders (host : RegistryHost) :
    List String → List String → List Json → Except RegistryError (List ResolvedProviderConfig)
  | _, _, [] => .ok []
  | ids, names, item :: rest => do
      let provider ← parseProvider host ids names item
      let providers ← parseProviders host (ids ++ [provider.id])
        (names ++ provider.models.map (·.name)) rest
      return provider :: providers

def parseRegistryConfig (host : RegistryHost) : Json → Except RegistryError ResolvedRegistryConfig
  | .obj config =>
      match Json.lookup "providers" config with
      | some (.arr (item :: items)) =>
          (parseProviders host [] [] (item :: items)).map fun providers => ⟨providers⟩
      | _ => .error (invalidConfig "providers" "config.providers must be a non-empty array")
  | _ => .error (invalidConfig "config" "registry config must be an object")

/-! ## The settled config as a value -/

def number (q : Rat) : Json := .num (.finite q)

def Cost.toJson (cost : Cost) : Json := Json.object [
  ("input", some (number cost.input)), ("output", some (number cost.output)),
  ("cacheRead", some (number cost.cacheRead)), ("cacheWrite", some (number cost.cacheWrite))]

def CredentialSource.toJson : CredentialSource → Json
  | envVar name => .obj [("kind", .str "env-var"), ("envVar", .str name)]
  | oauth => .obj [("kind", .str "oauth")]

def inputJson (input : List Modality) : Json := .arr (input.map fun x => .str x.name)

def ResolvedModelConfig.properties (model : ResolvedModelConfig) : List (String × Option Json) := [
  ("name", some (.str model.name)), ("modelId", some (.str model.modelId)),
  ("maxTokens", some (number model.maxTokens)), ("reasoning", model.reasoning.map .bool),
  ("input", model.input.map inputJson), ("cost", some model.cost.toJson),
  ("api", model.api.map fun api => .str api.text), ("baseUrl", model.baseUrl.map .str),
  ("headers", model.headers.map headersJson),
  ("catalog", if model.optedOut then some (.bool false) else none),
  ("compat", model.compat.map .obj), ("contextWindow", some (number model.contextWindow)),
  ("contextWindowSource", some (.str model.contextWindowSource.text)),
  ("catalogContextWindow", model.catalogContextWindow.map number),
  ("thinkingLevelMap", model.thinkingLevelMap), ("catalogCompat", model.catalogCompat)]

def ResolvedModelConfig.toJson (model : ResolvedModelConfig) : Json := Json.object model.properties

def ResolvedProviderConfig.toJson (provider : ResolvedProviderConfig) : Json := Json.object [
  ("id", some (.str provider.id)), ("displayName", provider.displayName.map .str),
  ("api", some (.str provider.api.text)), ("baseUrl", some (.str provider.baseUrl)),
  ("credential", some provider.credential.toJson), ("catalog", provider.catalog.map .str),
  ("headers", provider.headers.map headersJson),
  ("models", some (.arr (provider.models.map (·.toJson))))]

def ResolvedRegistryConfig.toJson (config : ResolvedRegistryConfig) : Json :=
  .obj [("providers", .arr (config.providers.map (·.toJson)))]

end AdCoder.Registry
