import AdCoder.Foundation.OrderedMaps
import AdCoder.Profiles.Validate

/-!
# The model registry

Providers and models as declared, as settled by validation, and as the built-in catalog
publishes them.
-/

namespace AdCoder.Registry

open Foundation

inductive ApiKind where
  | openaiCompletions
  | anthropicMessages
  | openaiCodexResponses
  deriving DecidableEq

def ApiKind.text : ApiKind → String
  | openaiCompletions => "openai-completions"
  | anthropicMessages => "anthropic-messages"
  | openaiCodexResponses => "openai-codex-responses"

/-- `API_KINDS`. -/
def apiKinds : List ApiKind := [.openaiCompletions, .anthropicMessages, .openaiCodexResponses]

inductive Modality where
  | text
  | image
  deriving DecidableEq

def Modality.name : Modality → String
  | text => "text"
  | image => "image"

def modalities : List Modality := [.text, .image]

structure Cost where
  input : Rat
  output : Rat
  cacheRead : Rat
  cacheWrite : Rat
  deriving DecidableEq

inductive CredentialSource where
  | envVar (name : String)
  | oauth
  deriving DecidableEq

inductive ContextWindowSource where
  | declared
  | catalog
  | catalogClamped
  | builtInDefault
  deriving DecidableEq

def ContextWindowSource.text : ContextWindowSource → String
  | declared => "declared"
  | catalog => "catalog"
  | catalogClamped => "catalog-clamped"
  | builtInDefault => "built-in-default"

/-- `CONTEXT_WINDOW_SOURCES`. -/
def contextWindowSources : List ContextWindowSource :=
  [.declared, .catalog, .catalogClamped, .builtInDefault]

theorem mem_apiKinds (x : ApiKind) : x ∈ apiKinds := by cases x <;> decide

theorem mem_modalities (x : Modality) : x ∈ modalities := by cases x <;> decide

theorem mem_contextWindowSources (x : ContextWindowSource) : x ∈ contextWindowSources := by
  cases x <;> decide

theorem ApiKind.text_injective : Function.Injective ApiKind.text := by
  intro x y
  cases x <;> cases y <;> decide

theorem Modality.name_injective : Function.Injective Modality.name := by
  intro x y
  cases x <;> cases y <;> decide

theorem ContextWindowSource.text_injective : Function.Injective ContextWindowSource.text := by
  intro x y
  cases x <;> cases y <;> decide

/-- Header names and values, in the order of their declaration. -/
abbrev HeaderMap := List (String × String)

/-- A model as an operator writes it. A field that may be left out is `none` when it is;
`optedOut` is `catalog: false`. -/
structure ModelConfig where
  name : String
  modelId : String
  contextWindow : Option Rat
  maxTokens : Option Rat
  reasoning : Option Bool
  input : Option (List Modality)
  cost : Option Cost
  api : Option ApiKind
  baseUrl : Option String
  headers : Option HeaderMap
  optedOut : Bool
  compat : Option (List (String × Json))

/-- A model after validation, with every field the resolver needs. -/
@[ext]
structure ResolvedModelConfig where
  name : String
  modelId : String
  contextWindow : Rat
  contextWindowSource : ContextWindowSource
  catalogContextWindow : Option Rat
  maxTokens : Rat
  reasoning : Option Bool
  input : Option (List Modality)
  cost : Cost
  api : Option ApiKind
  baseUrl : Option String
  headers : Option HeaderMap
  optedOut : Bool
  compat : Option (List (String × Json))
  thinkingLevelMap : Option Json
  catalogCompat : Option Json

structure ResolvedProviderConfig where
  id : String
  displayName : Option String
  api : ApiKind
  baseUrl : String
  credential : CredentialSource
  catalog : Option String
  headers : Option HeaderMap
  models : List ResolvedModelConfig

structure ResolvedRegistryConfig where
  providers : List ResolvedProviderConfig

/-- The names under which models are looked up. -/
def ResolvedRegistryConfig.modelNames (config : ResolvedRegistryConfig) : List String :=
  config.providers.flatMap fun provider => provider.models.map (·.name)

inductive RegistryErrorCode where
  | invalidConfig
  | duplicateProvider
  | duplicateModel
  | unsupportedApi
  | unknownCatalog
  | missingCredential
  | unknownModel
  deriving DecidableEq

structure RegistryError where
  code : RegistryErrorCode
  detail : String
  message : String
  deriving DecidableEq

/-! ## The built-in catalog -/

/-- A model of the shipped catalog; its API is any text. -/
structure BuiltinModel where
  id : String
  api : String
  baseUrl : String
  reasoning : Bool
  input : List Modality
  cost : Cost
  contextWindow : Rat
  maxTokens : Rat
  thinkingLevelMap : Option Json
  compat : Option Json

/-- One catalog entry, narrowed to the fields the registry consumes. -/
structure CatalogModel where
  modelId : String
  api : ApiKind
  baseUrl : String
  reasoning : Bool
  input : List Modality
  cost : Cost
  contextWindow : Rat
  maxTokens : Rat
  thinkingLevelMap : Option Json
  compat : Option Json

/-- The parts of a URL that an endpoint is checked for. -/
structure ParsedUrl where
  protocol : String
  username : String
  password : String

/-- What is not in the repository: `new URL`, which is `none` where it throws, and the models
that each provider of the shipped catalog has. -/
structure RegistryHost where
  parseUrl : String → Option ParsedUrl
  builtins : List (String × List BuiltinModel)

/-- `RESOLVABLE_APIS`. -/
def resolvableApis : List ApiKind := [.openaiCompletions, .anthropicMessages]

def resolvableApi (api : String) : Option ApiKind := resolvableApis.find? fun kind => kind.text == api

def BuiltinModel.entry (model : BuiltinModel) (api : ApiKind) : CatalogModel where
  modelId := model.id
  api
  baseUrl := model.baseUrl
  reasoning := model.reasoning
  input := model.input
  cost := model.cost
  contextWindow := model.contextWindow
  maxTokens := model.maxTokens
  thinkingLevelMap := model.thinkingLevelMap
  compat := model.compat

/-- The entries of one catalog by their ids. -/
abbrev Catalog := List (String × CatalogModel)

def addModel (models : Catalog) (model : BuiltinModel) : Catalog :=
  match resolvableApi model.api with
  | none => models
  | some api => OrderedMap.put model.id (model.entry api) models

def providerCatalog (models : List BuiltinModel) : Catalog := models.foldl addModel []

namespace RegistryHost

/-- Provider name to its entries. -/
def build (host : RegistryHost) : List (String × Catalog) :=
  host.builtins.foldl (fun built provider =>
    OrderedMap.put provider.1 (providerCatalog provider.2) built) []

/-- The names of the catalogs with a resolvable model, sorted. -/
def catalogNames (host : RegistryHost) : List String :=
  sortText ((host.build.filter fun provider => !provider.2.isEmpty).map (·.1))

def catalogModels (host : RegistryHost) (name : String) : Option Catalog :=
  (OrderedMap.get? host.build name).filter fun models => !models.isEmpty

end RegistryHost

/-! ## What the catalog holds -/

section Catalogs

variable {models : Catalog} {id : String} {entry : CatalogModel} {host : RegistryHost}
  {name : String}

/-- Every entry stands under its own id and comes from a model with a resolvable API. -/
theorem mem_providerCatalog {builtins : List BuiltinModel} (mem : (id, entry) ∈
    providerCatalog builtins) :
    ∃ model ∈ builtins, ∃ api, resolvableApi model.api = some api ∧ id = model.id ∧
      entry = model.entry api := by
  have step : ∀ (rest : List BuiltinModel) (before : Catalog), (id, entry) ∈ rest.foldl addModel before →
      (id, entry) ∈ before ∨ ∃ model ∈ rest, ∃ api, resolvableApi model.api = some api ∧
        id = model.id ∧ entry = model.entry api := by
    intro rest
    induction rest with
    | nil => exact fun before mem => Or.inl mem
    | cons model rest ih =>
        intro before mem
        obtain old | ⟨later, among, found⟩ := ih _ mem
        · rw [addModel] at old
          split at old
          · exact Or.inl old
          · next api resolvable =>
              obtain new | old := OrderedMap.mem_put old
              · cases new
                exact Or.inr ⟨model, List.mem_cons_self, api, resolvable, rfl, rfl⟩
              · exact Or.inl old
        · exact Or.inr ⟨later, List.mem_cons_of_mem _ among, found⟩
  exact (step builtins [] mem).resolve_left List.not_mem_nil

theorem nodup_providerCatalog (builtins : List BuiltinModel) :
    ((providerCatalog builtins).map (·.1)).Nodup := by
  have step : ∀ (rest : List BuiltinModel) (before : Catalog), (before.map (·.1)).Nodup →
      ((rest.foldl addModel before).map (·.1)).Nodup := by
    intro rest
    induction rest with
    | nil => exact fun before distinct => distinct
    | cons model rest ih =>
        intro before distinct
        refine ih _ ?_
        rw [addModel]
        split
        · exact distinct
        · exact OrderedMap.nodup_put distinct
  exact step builtins [] List.nodup_nil

theorem mem_build {provider : String × Catalog} (mem : provider ∈ host.build) :
    ∃ builtin ∈ host.builtins, provider = (builtin.1, providerCatalog builtin.2) := by
  have step : ∀ (rest : List (String × List BuiltinModel)) (before : List (String × Catalog)),
      provider ∈ rest.foldl (fun built provider =>
        OrderedMap.put provider.1 (providerCatalog provider.2) built) before →
      provider ∈ before ∨
        ∃ builtin ∈ rest, provider = (builtin.1, providerCatalog builtin.2) := by
    intro rest
    induction rest with
    | nil => exact fun before mem => Or.inl mem
    | cons builtin rest ih =>
        intro before mem
        obtain old | ⟨later, among, found⟩ := ih _ mem
        · obtain new | old := OrderedMap.mem_put old
          · exact Or.inr ⟨builtin, List.mem_cons_self, new⟩
          · exact Or.inl old
        · exact Or.inr ⟨later, List.mem_cons_of_mem _ among, found⟩
  exact (step host.builtins [] mem).resolve_left List.not_mem_nil

theorem catalogModels_eq_some (found : host.catalogModels name = some models) :
    models ≠ [] ∧ ∃ builtin ∈ host.builtins, models = providerCatalog builtin.2 := by
  rw [RegistryHost.catalogModels, Option.filter_eq_some_iff] at found
  obtain ⟨held, filled⟩ := found
  obtain ⟨builtin, mem, same⟩ := mem_build (OrderedMap.mem_of_get? held)
  refine ⟨?_, builtin, mem, (Prod.mk.inj same).2⟩
  rintro rfl
  cases filled

end Catalogs

end AdCoder.Registry
