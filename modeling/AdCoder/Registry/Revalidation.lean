import AdCoder.Registry.ValidateLaws

/-!
# Validating a settled registry

A second validation sees every optional field filled in. It reads the settled provenance and
finds each derived field as the first one left it, so any number of validations give the same
registry.
-/

namespace AdCoder.Registry

open Foundation
open Profiles (ofText? ofText?_text)

/-! ## Models -/

section Models

variable {host : RegistryHost} {catalog : Option Catalog} {model : ResolvedModelConfig}
  {entry : CatalogModel} {seen : List String} {providerId : String}

/-- A settled model read as a declaration: everything is stated. -/
def ResolvedModelConfig.asDeclared (model : ResolvedModelConfig) : ModelConfig where
  name := model.name
  modelId := model.modelId
  contextWindow := some model.contextWindow
  maxTokens := some model.maxTokens
  reasoning := model.reasoning
  input := model.input
  cost := some model.cost
  api := model.api
  baseUrl := model.baseUrl
  headers := model.headers
  optedOut := model.optedOut
  compat := model.compat

theorem optsOut_properties : optsOut (Json.fields model.properties) = model.optedOut := by
  rw [optsOut, show Json.lookup "catalog" (Json.fields model.properties) =
    if model.optedOut then some (.bool false) else none by simp [ResolvedModelConfig.properties]]
  cases model.optedOut <;> rfl

theorem settled_properties : settledWindowProvenance (Json.fields model.properties) =
    ⟨some model.contextWindowSource, model.catalogContextWindow⟩ := by
  have source : Json.lookup "contextWindowSource" (Json.fields model.properties) =
      some (.str model.contextWindowSource.text) := by simp [ResolvedModelConfig.properties]
  have window : Json.lookup "catalogContextWindow" (Json.fields model.properties) =
      model.catalogContextWindow.map number := by simp [ResolvedModelConfig.properties]
  rw [settledWindowProvenance, source, window,
    ofText?_text mem_contextWindowSources ContextWindowSource.text_injective]
  cases model.catalogContextWindow <;> rfl

theorem declares_properties (valid : model.Valid host catalog) :
    Declares host (Json.fields model.properties) model.asDeclared where
  contextWindow := ⟨by simp [ResolvedModelConfig.properties, ResolvedModelConfig.asDeclared], by
    rintro _ ⟨⟩
    exact valid.contextWindow⟩
  maxTokens := ⟨by simp [ResolvedModelConfig.properties, ResolvedModelConfig.asDeclared], by
    rintro _ ⟨⟩
    exact valid.maxTokens⟩
  reasoning := by simp [ResolvedModelConfig.properties, ResolvedModelConfig.asDeclared]
  input := ⟨by simp [ResolvedModelConfig.properties, ResolvedModelConfig.asDeclared], valid.input⟩
  api := by simp [ResolvedModelConfig.properties, ResolvedModelConfig.asDeclared]
  compat := by simp [ResolvedModelConfig.properties, ResolvedModelConfig.asDeclared]
  baseUrl := ⟨by simp [ResolvedModelConfig.properties, ResolvedModelConfig.asDeclared], valid.baseUrl⟩
  headers := by
    rw [show Json.lookup "headers" (Json.fields model.properties) = model.headers.map headersJson by
      simp [ResolvedModelConfig.properties]]
    exact parseHeaders_again valid.headers
  cost := by
    rw [show Json.lookup "cost" (Json.fields model.properties) = some model.cost.toJson by
      simp [ResolvedModelConfig.properties], whenPresent, map_eq_ok]
    exact ⟨model.cost, parseCost_again model.cost, rfl⟩
  optedOut := optsOut_properties.symm

/-- A model from the catalog is taken from it again as it is. -/
theorem catalogModel_again (taken : model.From entry) :
    catalogModel entry model.asDeclared ⟨some model.contextWindowSource, model.catalogContextWindow⟩ =
      model := by
  have window : discardedWindow model.asDeclared entry = none := if_neg fun h => nomatch h.1
  have stated {α : Type} {x : Option α} {default : α} (h : x.isSome = true) :
      some (x.getD default) = x := by
    obtain ⟨a, rfl⟩ := Option.isSome_iff_exists.mp h
    rfl
  refine ResolvedModelConfig.ext rfl rfl rfl rfl ?_ rfl ?_ ?_ rfl ?_ ?_ rfl rfl rfl ?_ ?_
  · rw [catalogModel, window, Option.or_none]
  · exact stated taken.reasoning
  · exact stated taken.input
  · exact taken.api.symm
  · exact stated taken.baseUrl
  · exact taken.thinkingLevelMap.symm
  · exact taken.catalogCompat.symm

theorem declaredModel_again (byHand : model.ByHand) :
    declaredModel model.asDeclared model.maxTokens model.cost
      ⟨some model.contextWindowSource, model.catalogContextWindow⟩ = model :=
  ResolvedModelConfig.ext rfl rfl rfl rfl byHand.catalogContextWindow.symm rfl rfl rfl rfl rfl rfl rfl
    rfl rfl byHand.thinkingLevelMap.symm byHand.catalogCompat.symm

theorem parseModel_again (valid : model.Valid host catalog) (fresh : model.name ∉ seen) :
    parseModel host providerId catalog seen model.toJson = .ok model := by
  have name : nameValue catalog model.modelId (Json.lookup "name" (Json.fields model.properties)) =
      some (.str model.name) := by simp [ResolvedModelConfig.properties, nameValue]
  have modelId : Json.lookup "modelId" (Json.fields model.properties) = some (.str model.modelId) := by
    simp [ResolvedModelConfig.properties]
  have marked : (Json.lookup "catalog" (Json.fields model.properties)).isNone ∨
      model.optedOut = true := by
    rw [show Json.lookup "catalog" (Json.fields model.properties) =
      if model.optedOut then some (.bool false) else none by simp [ResolvedModelConfig.properties]]
    cases model.optedOut <;> simp
  simp only [ResolvedModelConfig.toJson, Json.object, parseModel, bind_eq_ok, nonEmptyString_eq_ok,
    checkMarker_eq_ok, optsOut_properties]
  refine ⟨model.modelId, ⟨modelId, valid.modelId⟩, model.name, ⟨name, valid.name⟩, (),
    ⟨marked, valid.marker⟩, ?_⟩
  split
  · next entries used =>
      obtain ⟨entry, found, taken⟩ := valid.backed entries used
      have read : parseModelOverrides host (Json.fields model.properties) model.name model.modelId =
          .ok model.asDeclared :=
        parseModelOverrides_eq_ok.mpr ⟨rfl, rfl, declares_properties valid⟩
      rw [parseCatalogModel, found]
      refine bind_eq_ok.mpr ⟨_, read, fromCatalog_eq_ok.mpr ⟨fresh, ?_, ?_⟩⟩
      · intro api stated
        exact Option.some.inj (stated.symm.trans taken.api)
      · rw [settled_properties, catalogModel_again taken]
  · next unused =>
      have tokens : Json.lookup "maxTokens" (Json.fields model.properties) =
          some (number model.maxTokens) := by simp [ResolvedModelConfig.properties]
      have cost : Json.lookup "cost" (Json.fields model.properties) = some model.cost.toJson := by
        simp [ResolvedModelConfig.properties]
      simp only [parseDeclaredModel, bind_eq_ok, addName_eq_ok, assertPositiveNumber_eq_ok,
        parseModelOverrides_eq_ok, pure_eq_ok]
      refine ⟨(), fresh, model.maxTokens, ⟨tokens, valid.maxTokens⟩, model.cost, ?_,
        model.asDeclared, ⟨rfl, rfl, declares_properties valid⟩, ?_⟩
      · rw [cost, parseCost_again]
      · rw [settled_properties, declaredModel_again (valid.byHand unused)]

theorem parseModels_eq_ok {items : List Json} {models : List ResolvedModelConfig}
    (keyed : ∀ entries ∈ catalog, KeyedCatalog host entries)
    (h : parseModels host providerId catalog seen items = .ok models) :
    (∀ model ∈ models, (host.Sound → model.Valid host catalog) ∧ model.name ∉ seen) ∧
      (models.map (·.name)).Nodup ∧ List.Forall₂ (Settles catalog) items models := by
  induction items generalizing seen models with
  | nil =>
      obtain rfl := Except.ok.inj h
      exact ⟨by simp, List.nodup_nil, .nil⟩
  | cons item rest ih =>
      simp only [parseModels, bind_eq_ok, pure_eq_ok] at h
      obtain ⟨model, first, later, parsed, rfl⟩ := h
      obtain ⟨valid, fresh, settles⟩ := parseModel_eq_ok keyed first
      obtain ⟨each, distinct, related⟩ := ih parsed
      simp only [List.mem_append, List.mem_singleton, not_or] at each
      refine ⟨List.forall_mem_cons.mpr ⟨⟨valid, fresh⟩, fun other mem =>
        ⟨(each other mem).1, (each other mem).2.1⟩⟩, ?_, .cons settles related⟩
      rw [List.map_cons, List.nodup_cons]
      refine ⟨fun mem => ?_, distinct⟩
      obtain ⟨other, among, same⟩ := List.mem_map.mp mem
      exact (each other among).2.2 same

theorem parseModels_again {models : List ResolvedModelConfig}
    (each : ∀ model ∈ models, model.Valid host catalog ∧ model.name ∉ seen)
    (distinct : (models.map (·.name)).Nodup) :
    parseModels host providerId catalog seen (models.map (·.toJson)) = .ok models := by
  induction models generalizing seen with
  | nil => rfl
  | cons model rest ih =>
      obtain ⟨⟨valid, fresh⟩, later⟩ := List.forall_mem_cons.mp each
      rw [List.map_cons, List.nodup_cons] at distinct
      have next : ∀ other ∈ rest, other.Valid host catalog ∧ other.name ∉ seen ++ [model.name] := by
        intro other mem
        simp only [List.mem_append, List.mem_singleton, not_or]
        refine ⟨(later other mem).1, (later other mem).2, fun same => distinct.1 ?_⟩
        exact same ▸ List.mem_map_of_mem mem
      simp only [List.map_cons, parseModels, bind_eq_ok, pure_eq_ok]
      exact ⟨model, parseModel_again valid fresh, rest, ih next distinct.2, rfl⟩

/-- What a catalog entry becomes when the whole catalog is admitted. -/
def Admits (catalog : Option Catalog) (entry : CatalogModel) (model : ResolvedModelConfig) : Prop :=
  model.modelId = entry.modelId ∧ WindowProvenance catalog false model ∧ model.headers = none

theorem declares_undeclared : Declares host [] (undeclared entry) := by
  constructor <;> simp [undeclared, whenPresent, parseHeaders, optsOut]

theorem admitCatalog_eq_ok {entries : List CatalogModel} {models : List ResolvedModelConfig}
    {held : Catalog} (keyed : KeyedCatalog host held) (within : ∀ entry ∈ entries,
      OrderedMap.get? held entry.modelId = some entry)
    (h : admitCatalog providerId seen entries = .ok models) :
    (∀ model ∈ models, (host.Sound → model.Valid host (some held)) ∧ model.name ∉ seen) ∧
      (models.map (·.name)).Nodup ∧ List.Forall₂ (Admits (some held)) entries models := by
  induction entries generalizing seen models with
  | nil =>
      obtain rfl := Except.ok.inj h
      exact ⟨by simp, List.nodup_nil, .nil⟩
  | cons entry rest ih =>
      simp only [admitCatalog, bind_eq_ok, pure_eq_ok] at h
      obtain ⟨model, taken, later, parsed, rfl⟩ := h
      obtain ⟨fresh, -, rfl⟩ := fromCatalog_eq_ok.mp taken
      obtain ⟨found, others⟩ := List.forall_mem_cons.mp within
      have used : usedCatalog (some held) (undeclared entry).optedOut = some held := rfl
      have valid : host.Sound →
          (catalogModel entry (undeclared entry) ⟨none, none⟩).Valid host (some held) := by
        intro sound
        have entry_sound := keyed.get? found sound
        exact valid_catalogModel entry_sound declares_undeclared entry_sound.modelId
          entry_sound.modelId used found
      obtain ⟨each, distinct, related⟩ := ih others parsed
      simp only [List.mem_append, List.mem_singleton, not_or] at each
      refine ⟨List.forall_mem_cons.mpr ⟨⟨valid, fresh⟩, fun other mem =>
        ⟨(each other mem).1, (each other mem).2.1⟩⟩, ?_,
        .cons ⟨rfl, catalogModel_provenance used found, rfl⟩ related⟩
      rw [List.map_cons, List.nodup_cons]
      refine ⟨fun mem => ?_, distinct⟩
      obtain ⟨other, among, same⟩ := List.mem_map.mp mem
      exact (each other among).2.2 same

end Models

/-! ## Providers -/

section Providers

variable {host : RegistryHost} {provider : ResolvedProviderConfig} {ids names : List String}

/-- The catalog that a provider takes models from. -/
def ResolvedProviderConfig.entries (host : RegistryHost) (provider : ResolvedProviderConfig) :
    Option Catalog := provider.catalog.bind host.catalogModels

/-- The bounds under which a settled provider is validated again as it is. -/
structure ResolvedProviderConfig.Valid (host : RegistryHost) (provider : ResolvedProviderConfig) :
    Prop where
  id : provider.id ≠ ""
  catalog : ∀ name ∈ provider.catalog, name ≠ "" ∧ ∃ entries, host.catalogModels name = some entries
  baseUrl : httpsUrl host provider.baseUrl = true
  credential : provider.credential.Valid
  headers : ∀ headers ∈ provider.headers, ValidHeaders headers
  filled : provider.models ≠ []
  models : ∀ model ∈ provider.models, model.Valid host (provider.entries host)
  distinct : (provider.models.map (·.name)).Nodup

theorem keyed_catalogModels {name : String} {entries : Catalog}
    (found : host.catalogModels name = some entries) : KeyedCatalog host entries := by
  obtain ⟨-, builtin, among, rfl⟩ := catalogModels_eq_some found
  refine ⟨fun id entry mem => ?_, nodup_providerCatalog builtin.2⟩
  obtain ⟨model, listed, api, resolvable, rfl, rfl⟩ := mem_providerCatalog mem
  exact ⟨rfl, fun sound => sound builtin among model listed api resolvable⟩

/-- What the models of an accepted provider become: each from its entry, or the whole catalog. -/
def ModelsSettle (catalog : Option Catalog) (models : List ResolvedModelConfig) : Option Json → Prop
  | some value => ∃ items, value = .arr items ∧ List.Forall₂ (Settles catalog) items models
  | none => List.Forall₂ (Admits catalog) ((catalog.getD []).map (·.2)) models

def ProviderSettles (host : RegistryHost) (value : Json) (provider : ResolvedProviderConfig) : Prop :=
  ∃ record, value = .obj record ∧
    ModelsSettle (provider.entries host) provider.models (Json.lookup "models" record) ∧
    provider.headers.getD [] = (statedHeaders (Json.lookup "headers" record)).filter assigned

theorem parseCatalogName_eq_ok {id name : String} {entries : Catalog} {value : Json} :
    parseCatalogName host id value = .ok (name, entries) ↔
      value = .str name ∧ name ≠ "" ∧ host.catalogModels name = some entries := by
  simp only [parseCatalogName, bind_eq_ok, nonEmptyString_eq_ok, Option.some.injEq]
  constructor
  · rintro ⟨other, ⟨rfl, filled⟩, read⟩
    split at read
    · next held found =>
        obtain ⟨rfl, rfl⟩ := Prod.mk.inj (Except.ok.inj read)
        exact ⟨rfl, filled, found⟩
    · cases read
  · rintro ⟨rfl, filled, found⟩
    exact ⟨name, ⟨rfl, filled⟩, by rw [found]; rfl⟩

theorem parseBaseUrl_eq_ok {id : String} {catalog : Option Catalog} {value : Option Json}
    {result : Option String} (h : parseBaseUrl host id catalog value = .ok result) :
    ∀ url ∈ result, httpsUrl host url = true := by
  unfold parseBaseUrl at h
  split_ifs at h
  · obtain ⟨url, read, rfl⟩ := map_eq_ok.mp h
    rintro _ ⟨⟩
    exact (assertHttpsUrl_eq_ok.mp read).2
  · obtain rfl := Except.ok.inj h
    simp

theorem settledBaseUrl_eq_ok {id baseUrl : String} {declaredUrl : Option String}
    {models : List ResolvedModelConfig}
    (h : settledBaseUrl id declaredUrl models = .ok baseUrl)
    (declared : ∀ url ∈ declaredUrl, httpsUrl host url = true)
    (each : ∀ model ∈ models, ∀ url ∈ model.baseUrl, httpsUrl host url = true) :
    httpsUrl host baseUrl = true := by
  unfold settledBaseUrl at h
  split at h
  · next url found =>
      obtain rfl := Except.ok.inj h
      obtain here | ⟨-, there⟩ := Option.or_eq_some_iff.mp found
      · exact declared _ here
      · obtain ⟨model, mem, has⟩ := List.exists_of_findSome?_eq_some there
        exact each model mem _ has
  · cases h

/-- The models of a provider, each settled from its entry or from the catalog. -/
theorem providerModels_eq_ok {id : String} {catalog : Option Catalog} {value : Option Json}
    {models : List ResolvedModelConfig}
    (keyed : ∀ entries ∈ catalog, KeyedCatalog host entries ∧ entries ≠ [])
    (h : providerModels host id catalog names value = .ok models) :
    models ≠ [] ∧
      (∀ model ∈ models, (host.Sound → model.Valid host catalog) ∧ model.name ∉ names) ∧
      (models.map (·.name)).Nodup ∧ ModelsSettle catalog models value := by
  unfold providerModels at h
  split at h
  · next item items =>
      obtain ⟨each, distinct, related⟩ := parseModels_eq_ok (fun entries held => (keyed entries held).1) h
      refine ⟨?_, each, distinct, item :: items, rfl, related⟩
      rintro rfl
      cases related
  · cases h
  · split at h
    · next entries =>
        obtain ⟨entries_keyed, filled⟩ := keyed entries rfl
        have within : ∀ entry ∈ entries.map (·.2),
            OrderedMap.get? entries entry.modelId = some entry := by
          intro entry mem
          obtain ⟨⟨key, held⟩, among, rfl⟩ := List.mem_map.mp mem
          rw [← (entries_keyed.each key held among).1]
          exact (OrderedMap.mem_iff entries_keyed.distinct).mp among
        obtain ⟨each, distinct, related⟩ := admitCatalog_eq_ok entries_keyed within h
        refine ⟨?_, each, distinct, related⟩
        rintro rfl
        exact filled (List.map_eq_nil_iff.mp (List.forall₂_nil_right_iff.mp related))
    · cases h

theorem parseProvider_eq_ok {value : Json}
    (h : parseProvider host ids names value = .ok provider) :
    (host.Sound → provider.Valid host) ∧ provider.id ∉ ids ∧
      (∀ model ∈ provider.models, model.name ∉ names) ∧ (provider.models.map (·.name)).Nodup ∧
      ProviderSettles host value provider := by
  cases value with
  | obj record =>
      simp only [parseProvider, bind_eq_ok, nonEmptyString_eq_ok, require_eq_ok, pure_eq_ok] at h
      obtain ⟨id, ⟨-, filled⟩, _, fresh, displayName, -, api, -, catalog, named, declaredUrl, url,
        credential, credentials, headers, declared, models, taken, baseUrl, settled, rfl⟩ := h
      have held : (catalog.map (·.1)).bind host.catalogModels = catalog.map (·.2) ∧
          ∀ name ∈ catalog.map (·.1), name ≠ "" ∧ ∃ entries, host.catalogModels name = some entries := by
        obtain ⟨-, rfl⟩ | ⟨_, ⟨name, entries⟩, -, read, rfl⟩ := whenPresent_eq_ok.mp named
        · exact ⟨rfl, by simp⟩
        · obtain ⟨-, filled, found⟩ := parseCatalogName_eq_ok.mp read
          refine ⟨found, ?_⟩
          rintro _ ⟨⟩
          exact ⟨filled, entries, found⟩
      have keyed : ∀ entries ∈ catalog.map (·.2), KeyedCatalog host entries ∧ entries ≠ [] := by
        intro entries mem
        rw [← held.1] at mem
        obtain ⟨name, -, found⟩ := Option.bind_eq_some_iff.mp mem
        exact ⟨keyed_catalogModels found, (catalogModels_eq_some found).1⟩
      obtain ⟨some_models, each, distinct, related⟩ := providerModels_eq_ok keyed taken
      rw [← held.1] at each related
      refine ⟨fun sound => ⟨filled, held.2, ?_, parseCredential_eq_ok credentials,
        (parseHeaders_eq_ok declared).1, some_models, fun model mem => (each model mem).1 sound, distinct⟩,
        ?_, fun model mem => (each model mem).2, distinct, record, rfl, related,
        (parseHeaders_eq_ok declared).2⟩
      · exact settledBaseUrl_eq_ok settled (parseBaseUrl_eq_ok url)
          fun model mem => ((each model mem).1 sound).baseUrl
      · simpa using fresh
  | _ => cases h

theorem providerModels_again {id : String} {catalog : Option Catalog}
    {models : List ResolvedModelConfig} (filled : models ≠ [])
    (each : ∀ model ∈ models, model.Valid host catalog ∧ model.name ∉ names)
    (distinct : (models.map (·.name)).Nodup) :
    providerModels host id catalog names (some (.arr (models.map (·.toJson)))) = .ok models := by
  have parsed : parseModels host id catalog names (models.map (·.toJson)) = .ok models :=
    parseModels_again each distinct
  cases models with
  | nil => exact absurd rfl filled
  | cons model rest => exact parsed

theorem parseProvider_again (valid : provider.Valid host) (fresh : provider.id ∉ ids)
    (outside : ∀ model ∈ provider.models, model.name ∉ names) :
    parseProvider host ids names provider.toJson = .ok provider := by
  obtain ⟨catalog, named, entries, same⟩ : ∃ catalog : Option (String × Catalog),
      whenPresent (parseCatalogName host provider.id) (provider.catalog.map .str) = .ok catalog ∧
        catalog.map (·.2) = provider.entries host ∧ catalog.map (·.1) = provider.catalog := by
    cases named : provider.catalog with
    | none => exact ⟨none, rfl, by rw [ResolvedProviderConfig.entries, named]; rfl, rfl⟩
    | some name =>
        obtain ⟨filled, entries, found⟩ := valid.catalog name named
        refine ⟨some (name, entries), ?_, ?_, rfl⟩
        · rw [Option.map_some, whenPresent, map_eq_ok]
          exact ⟨_, parseCatalogName_eq_ok.mpr ⟨rfl, filled, found⟩, rfl⟩
        · rw [ResolvedProviderConfig.entries, named, Option.bind_some, found]
          rfl
  have url : parseBaseUrl host provider.id (catalog.map (·.2)) (some (.str provider.baseUrl)) =
      .ok (some provider.baseUrl) := by
    rw [parseBaseUrl, if_pos (by simp), map_eq_ok]
    exact ⟨_, assertHttpsUrl_eq_ok.mpr ⟨rfl, valid.baseUrl⟩, rfl⟩
  have models : providerModels host provider.id (provider.entries host) names
      (some (.arr (provider.models.map (·.toJson)))) = .ok provider.models :=
    providerModels_again valid.filled
      (fun model mem => ⟨valid.models model mem, outside model mem⟩) valid.distinct
  simp only [ResolvedProviderConfig.toJson, Json.object, parseProvider, bind_eq_ok,
    nonEmptyString_eq_ok, require_eq_ok, pure_eq_ok, parseApi_eq_ok, Json.lookup_fields_cons,
    Json.lookup_fields_nil, String.reduceEq, if_true, if_false, Option.some_or, Option.or_none]
  refine ⟨provider.id, ⟨rfl, valid.id⟩, (), by simpa using fresh, provider.displayName, ?_, provider.api,
    rfl, catalog, named, some provider.baseUrl, url, provider.credential,
    parseCredential_again valid.credential, provider.headers, parseHeaders_again valid.headers,
    provider.models, ?_, provider.baseUrl, rfl, ?_⟩
  · cases provider.displayName <;> rfl
  · rw [entries]
    exact models
  · rw [same]

/-- The bounds under which a settled registry is validated again as it is. -/
structure ResolvedRegistryConfig.Valid (host : RegistryHost) (config : ResolvedRegistryConfig) : Prop where
  filled : config.providers ≠ []
  each : ∀ provider ∈ config.providers, provider.Valid host
  ids : (config.providers.map (·.id)).Nodup
  names : config.modelNames.Nodup

theorem parseProviders_eq_ok {items : List Json} {providers : List ResolvedProviderConfig}
    (h : parseProviders host ids names items = .ok providers) :
    (∀ provider ∈ providers, (host.Sound → provider.Valid host) ∧ provider.id ∉ ids ∧
        ∀ model ∈ provider.models, model.name ∉ names) ∧
      (providers.map (·.id)).Nodup ∧
      (providers.flatMap fun provider => provider.models.map (·.name)).Nodup ∧
      List.Forall₂ (ProviderSettles host) items providers := by
  induction items generalizing ids names providers with
  | nil =>
      obtain rfl := Except.ok.inj h
      exact ⟨by simp, List.nodup_nil, List.nodup_nil, .nil⟩
  | cons item rest ih =>
      simp only [parseProviders, bind_eq_ok, pure_eq_ok] at h
      obtain ⟨provider, first, later, parsed, rfl⟩ := h
      obtain ⟨valid, fresh, outside, own, settles⟩ := parseProvider_eq_ok first
      obtain ⟨each, distinct, unique, related⟩ := ih parsed
      simp only [List.mem_append, List.mem_singleton, not_or] at each
      refine ⟨List.forall_mem_cons.mpr ⟨⟨valid, fresh, outside⟩, fun other mem =>
        ⟨(each other mem).1, (each other mem).2.1.1,
          fun model among => ((each other mem).2.2 model among).1⟩⟩, ?_, ?_, .cons settles related⟩
      · rw [List.map_cons, List.nodup_cons]
        refine ⟨fun mem => ?_, distinct⟩
        obtain ⟨other, among, same⟩ := List.mem_map.mp mem
        exact (each other among).2.1.2 same
      · rw [List.flatMap_cons, List.nodup_append]
        refine ⟨own, unique, fun name mem other later => ?_⟩
        obtain ⟨otherProvider, among, named⟩ := List.mem_flatMap.mp later
        obtain ⟨model, within, rfl⟩ := List.mem_map.mp named
        exact fun same => ((each otherProvider among).2.2 model within).2 (same ▸ mem)

theorem parseProviders_again {providers : List ResolvedProviderConfig}
    (each : ∀ provider ∈ providers, provider.Valid host ∧ provider.id ∉ ids ∧
      ∀ model ∈ provider.models, model.name ∉ names)
    (distinct : (providers.map (·.id)).Nodup)
    (unique : (providers.flatMap fun provider => provider.models.map (·.name)).Nodup) :
    parseProviders host ids names (providers.map (·.toJson)) = .ok providers := by
  induction providers generalizing ids names with
  | nil => rfl
  | cons provider rest ih =>
      obtain ⟨⟨valid, fresh, outside⟩, later⟩ := List.forall_mem_cons.mp each
      rw [List.map_cons, List.nodup_cons] at distinct
      rw [List.flatMap_cons, List.nodup_append] at unique
      have next : ∀ other ∈ rest, other.Valid host ∧ other.id ∉ ids ++ [provider.id] ∧
          ∀ model ∈ other.models, model.name ∉ names ++ provider.models.map (·.name) := by
        intro other mem
        obtain ⟨other_valid, other_fresh, other_outside⟩ := later other mem
        refine ⟨other_valid, ?_, fun model among => ?_⟩
        · simp only [List.mem_append, List.mem_singleton, not_or]
          exact ⟨other_fresh, fun same => distinct.1 (same ▸ List.mem_map_of_mem mem)⟩
        · simp only [List.mem_append, not_or]
          refine ⟨other_outside model among, fun here => ?_⟩
          have there : model.name ∈ rest.flatMap fun provider => provider.models.map (·.name) :=
            List.mem_flatMap.mpr ⟨other, mem, List.mem_map_of_mem among⟩
          exact unique.2.2 _ here _ there rfl
      simp only [List.map_cons, parseProviders, bind_eq_ok, pure_eq_ok]
      exact ⟨provider, parseProvider_again valid fresh outside, rest,
        ih next distinct.2 unique.2.1, rfl⟩

end Providers

/-! ## Registries -/

section Registries

variable {host : RegistryHost} {config : ResolvedRegistryConfig}

/-- What an accepted registry becomes, provider by provider. -/
def RegistrySettles (host : RegistryHost) (value : Json) (config : ResolvedRegistryConfig) : Prop :=
  ∃ record items, value = .obj record ∧ Json.lookup "providers" record = some (.arr items) ∧
    List.Forall₂ (ProviderSettles host) items config.providers

theorem parseRegistryConfig_eq_ok {value : Json}
    (h : parseRegistryConfig host value = .ok config) :
    (host.Sound → config.Valid host) ∧ (config.providers.map (·.id)).Nodup ∧
      config.modelNames.Nodup ∧ RegistrySettles host value config := by
  cases value with
  | obj record =>
      rw [parseRegistryConfig] at h
      split at h
      · next item items found =>
          obtain ⟨providers, parsed, rfl⟩ := map_eq_ok.mp h
          obtain ⟨each, distinct, unique, related⟩ := parseProviders_eq_ok parsed
          refine ⟨fun sound => ⟨?_, fun provider mem => (each provider mem).1 sound, distinct, unique⟩,
            distinct, unique, record, item :: items, rfl, found, related⟩
          rintro rfl
          cases related
      · cases h
  | _ => cases h

/-- A settled registry is validated again as it is. -/
theorem parseRegistryConfig_again (valid : config.Valid host) :
    parseRegistryConfig host config.toJson = .ok config := by
  obtain ⟨providers⟩ := config
  have parsed : parseProviders host [] [] (providers.map (·.toJson)) = .ok providers :=
    parseProviders_again (fun provider mem => ⟨valid.each provider mem, by simp, by simp⟩) valid.ids
      valid.names
  cases providers with
  | nil => exact absurd rfl valid.filled
  | cons provider rest =>
      simp only [ResolvedRegistryConfig.toJson, parseRegistryConfig, Json.lookup_cons, if_true,
        List.map_cons]
      rw [map_eq_ok]
      exact ⟨_, parsed, rfl⟩

/-- The registry after a first validation and a number of further ones. -/
def validationPasses (host : RegistryHost) (value : Json) : Nat →
    Except RegistryError ResolvedRegistryConfig
  | 0 => parseRegistryConfig host value
  | passes + 1 => do
      let config ← validationPasses host value passes
      parseRegistryConfig host config.toJson

/-- One catalog with a window beyond the default, and the URL at which it is served. -/
def openrouterHost : RegistryHost where
  parseUrl raw := if raw = "https://openrouter.ai/api/v1" then some ⟨"https:", "", ""⟩ else none
  builtins := [("openrouter", [{
    id := "large", api := "openai-completions", baseUrl := "https://openrouter.ai/api/v1"
    reasoning := true, input := [.text, .image], cost := ⟨3, 15, 0, 0⟩, contextWindow := 1000000
    maxTokens := 64000, thinkingLevelMap := none, compat := none }])]

theorem openrouterHost_sound : openrouterHost.Sound := by
  intro builtin among model listed api resolvable
  obtain rfl := List.mem_singleton.mp among
  obtain rfl := List.mem_singleton.mp listed
  refine ⟨by simp [BuiltinModel.entry], ?_, ?_, ⟨by simp [BuiltinModel.entry], ?_⟩, ?_⟩
  · show (0 : Rat) < 1000000
    decide
  · show (0 : Rat) < 64000
    decide
  · show [Modality.text, .image].Nodup
    decide
  · show httpsUrl openrouterHost "https://openrouter.ai/api/v1" = true
    decide

/-- A provider that admits one model of the catalog and one that the catalog does not publish. -/
def openrouterValue : Json := .obj [("providers", .arr [.obj [
  ("id", .str "openrouter"), ("api", .str "openai-completions"), ("catalog", .str "openrouter"),
  ("credential", .obj [("kind", .str "env-var"), ("envVar", .str "OPENROUTER_API_KEY")]),
  ("headers", .obj [("x-session", .str "\x7b\x7bsession\x7d\x7d")]),
  ("models", .arr [.obj [("modelId", .str "large")],
    .obj [("modelId", .str "preset"), ("name", .str "own"), ("catalog", .bool false),
      ("maxTokens", number 1000), ("cost", Cost.toJson ⟨1, 1, 0, 0⟩)]])]])]

end Registries

end AdCoder.Registry
