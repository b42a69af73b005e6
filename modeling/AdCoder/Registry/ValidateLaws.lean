import AdCoder.Registry.Validate

/-!
# What validation of a registry promises

Each reader of a field accepts just the values that it describes. A settled model or provider
meets the bounds under which it is validated again as it is.
-/

namespace AdCoder.Registry

open Foundation
open Profiles (ofText? ofText?_text)

/-! ## Fields -/

section Fields

variable {host : RegistryHost} {value : Option Json} {error : RegistryError} {field : String}
  {name s : String} {q : Rat}

theorem whenPresent_eq_ok {α : Type} {read : Json → Except RegistryError α} {result : Option α} :
    whenPresent read value = .ok result ↔
      (value = none ∧ result = none) ∨ ∃ v x, value = some v ∧ read v = .ok x ∧ result = some x := by
  cases value with
  | none => simp [whenPresent, eq_comm]
  | some v =>
      rw [whenPresent, map_eq_ok]
      constructor
      · rintro ⟨x, same, rfl⟩
        exact Or.inr ⟨v, x, rfl, same, rfl⟩
      · rintro (⟨⟨⟩, -⟩ | ⟨_, x, ⟨⟩, same, rfl⟩)
        exact ⟨x, same, rfl⟩

/-- A reader that accepts just what is written as one of its results. -/
theorem whenPresent_exact {α : Type} {read : Json → Except RegistryError α} (write : α → Json)
    (fits : α → Prop) (iff : ∀ v x, read v = .ok x ↔ v = write x ∧ fits x) {result : Option α} :
    whenPresent read value = .ok result ↔ value = result.map write ∧ ∀ x ∈ result, fits x := by
  rw [whenPresent_eq_ok]
  constructor
  · rintro (⟨rfl, rfl⟩ | ⟨v, x, rfl, same, rfl⟩)
    · exact ⟨rfl, by simp⟩
    · obtain ⟨rfl, ok⟩ := (iff v x).mp same
      exact ⟨rfl, by simpa using ok⟩
  · rintro ⟨rfl, ok⟩
    cases result with
    | none => exact Or.inl ⟨rfl, rfl⟩
    | some x => exact Or.inr ⟨write x, x, rfl, (iff _ x).mpr ⟨rfl, ok x rfl⟩, rfl⟩

theorem nonEmptyString_eq_ok :
    nonEmptyString error value = .ok s ↔ value = some (.str s) ∧ s ≠ "" := by
  unfold nonEmptyString
  split
  · next t =>
      simp only [Option.some.injEq, Json.str.injEq]
      split_ifs with filled
      · rw [Except.ok.injEq]
        constructor
        · rintro rfl
          exact ⟨rfl, bne_iff_ne.mp filled⟩
        · exact And.left
      · simp only [false_iff, not_and, not_not]
        rintro rfl
        simpa using filled
  · next other =>
      simp only [reduceCtorEq, false_iff, not_and]
      exact fun same => absurd same (other s)

theorem assertPositiveNumber_eq_ok :
    assertPositiveNumber field value = .ok q ↔ value = some (number q) ∧ 0 < q := by
  unfold assertPositiveNumber
  split
  · next r =>
      simp only [number, Option.some.injEq, Json.num.injEq, JsNumber.finite.injEq]
      split_ifs with positive
      · rw [Except.ok.injEq]
        constructor
        · rintro rfl
          exact ⟨rfl, positive⟩
        · exact And.left
      · simp only [false_iff, not_and]
        rintro rfl
        exact positive
  · next other =>
      simp only [reduceCtorEq, false_iff, not_and]
      exact fun same => absurd same (other q)

theorem boolean_eq_ok {v : Json} {b : Bool} : boolean error v = .ok b ↔ v = .bool b := by
  cases v <;> simp [boolean]

/-- An absolute https URL without userinfo. -/
def httpsUrl (host : RegistryHost) (raw : String) : Bool :=
  raw != "" && (host.parseUrl raw).any fun url =>
    url.protocol == "https:" && (url.username == "" && url.password == "")

theorem assertHttpsUrl_eq_ok : assertHttpsUrl host field value = .ok s ↔
    value = some (.str s) ∧ httpsUrl host s = true := by
  simp only [assertHttpsUrl, bind_eq_ok, nonEmptyString_eq_ok]
  constructor
  · rintro ⟨raw, ⟨rfl, filled⟩, checked⟩
    cases parsed : host.parseUrl raw with
    | none =>
        rw [parsed] at checked
        cases checked
    | some url =>
        simp only [parsed, bind_eq_ok, require_eq_ok, pure_eq_ok] at checked
        obtain ⟨_, secure, _, bare, rfl⟩ := checked
        refine ⟨rfl, ?_⟩
        rw [httpsUrl, parsed, Option.any_some, secure, bare, bne_iff_ne.mpr filled]
        rfl
  · rintro ⟨rfl, accepted⟩
    rw [httpsUrl, Bool.and_eq_true, bne_iff_ne] at accepted
    refine ⟨s, ⟨rfl, accepted.1⟩, ?_⟩
    cases parsed : host.parseUrl s with
    | none => simp [parsed] at accepted
    | some url =>
        rw [parsed, Option.any_some, Bool.and_eq_true] at accepted
        simp only [bind_eq_ok, require_eq_ok, pure_eq_ok]
        exact ⟨(), accepted.2.1, (), accepted.2.2, trivial⟩

theorem finite?_eq_some : finite? value = some q ↔ value = some (number q) := by
  unfold finite?
  split
  · simp [number]
  · next other =>
      simp only [reduceCtorEq, false_iff]
      exact other q

theorem ofText?_eq_some {α : Type} {values : List α} {text : α → String} {x : α}
    (all : ∀ x, x ∈ values) (injective : Function.Injective text) :
    ofText? values text value = some x ↔ value = some (.str (text x)) := by
  constructor
  · intro found
    unfold ofText? at found
    split at found
    · rw [show text x = _ by simpa using List.find?_some found]
    · cases found
  · rintro rfl
    exact ofText?_text all injective x

theorem parseApi_eq_ok {api : ApiKind} :
    parseApi error value = .ok api ↔ value = some (.str api.text) := by
  rw [← ofText?_eq_some mem_apiKinds ApiKind.text_injective, parseApi]
  split <;> simp_all

theorem modalities?_eq_some {items : List Json} {input : List Modality} :
    modalities? items = some input ↔ items = input.map fun x => .str x.name := by
  induction items generalizing input with
  | nil => cases input <;> simp [modalities?]
  | cons item rest ih =>
      simp only [modalities?, bind, Option.bind_eq_some_iff, pure, Option.some.injEq, ih,
        ofText?_eq_some mem_modalities Modality.name_injective]
      constructor
      · rintro ⟨modality, rfl, others, rfl, rfl⟩
        rfl
      · intro same
        cases input with
        | nil => cases same
        | cons modality others =>
            rw [List.map_cons, List.cons.injEq] at same
            exact ⟨modality, same.1, others, same.2, rfl⟩

theorem parseInput_eq_ok {v : Json} {input : List Modality} : parseInput name v = .ok input ↔
    v = inputJson input ∧ input ≠ [] ∧ input.Nodup := by
  cases v with
  | arr items =>
      simp only [parseInput, inputJson, Json.arr.injEq, ← modalities?_eq_some]
      cases modalities? items with
      | none => simp
      | some found =>
          simp only [Option.some.injEq]
          split_ifs with fits
          · rw [Except.ok.injEq]
            constructor
            · rintro rfl
              exact ⟨rfl, fits⟩
            · exact And.left
          · simp only [false_iff, not_and]
            rintro rfl
            simpa using fits
  | _ => simp [parseInput, inputJson]

theorem parseCompat_eq_ok {v : Json} {fields : List (String × Json)} :
    parseCompat name v = .ok fields ↔ v = .obj fields := by
  cases v <;> simp [parseCompat]

theorem costField_eq_ok {record : List (String × Json)} :
    costField name record field = .ok q ↔ Json.lookup field record = some (number q) := by
  rw [← finite?_eq_some, costField]
  split <;> simp_all

theorem parseCost_again (cost : Cost) : parseCost name (some cost.toJson) = .ok cost := by
  simp only [Cost.toJson, Json.object, parseCost, bind_eq_ok, costField_eq_ok, pure_eq_ok,
    Json.lookup_fields_cons, Json.lookup_fields_nil, String.reduceEq, if_true, if_false,
    Option.some_or]
  exact ⟨_, rfl, _, rfl, _, rfl, _, rfl, rfl⟩

/-- An env-var credential names its variable. -/
def CredentialSource.Valid : CredentialSource → Prop
  | envVar name => name ≠ ""
  | oauth => True

theorem parseCredential_eq_ok {credential : CredentialSource}
    (h : parseCredential name value = .ok credential) : credential.Valid := by
  unfold parseCredential at h
  split at h
  · split at h
    · obtain rfl := Except.ok.inj h
      trivial
    · obtain ⟨envVar, read, rfl⟩ := map_eq_ok.mp h
      exact (nonEmptyString_eq_ok.mp read).2
    · cases h
  · cases h

theorem parseCredential_again {credential : CredentialSource} (valid : credential.Valid) :
    parseCredential name (some credential.toJson) = .ok credential := by
  cases credential with
  | oauth => rfl
  | envVar envVar =>
      simp only [CredentialSource.toJson, parseCredential, Json.lookup_cons, if_true, Json.asString?,
        String.reduceEq, if_false, map_eq_ok]
      exact ⟨envVar, nonEmptyString_eq_ok.mpr ⟨rfl, valid⟩, rfl⟩

end Fields

/-! ## Models -/

section Models

variable {host : RegistryHost} {record : List (String × Json)} {name modelId providerId : String}
  {declared : ModelConfig} {seen : List String} {model : ResolvedModelConfig}

/-- The record declares these fields, each of them in its bounds. -/
structure Declares (host : RegistryHost) (record : List (String × Json)) (declared : ModelConfig) :
    Prop where
  contextWindow : Json.lookup "contextWindow" record = declared.contextWindow.map number ∧
    ∀ q ∈ declared.contextWindow, 0 < q
  maxTokens : Json.lookup "maxTokens" record = declared.maxTokens.map number ∧
    ∀ q ∈ declared.maxTokens, 0 < q
  reasoning : Json.lookup "reasoning" record = declared.reasoning.map .bool
  input : Json.lookup "input" record = declared.input.map inputJson ∧
    ∀ xs ∈ declared.input, xs ≠ [] ∧ xs.Nodup
  api : Json.lookup "api" record = declared.api.map fun api => .str api.text
  compat : Json.lookup "compat" record = declared.compat.map .obj
  baseUrl : Json.lookup "baseUrl" record = declared.baseUrl.map .str ∧
    ∀ url ∈ declared.baseUrl, httpsUrl host url = true
  headers : parseHeaders declared.name (Json.lookup "headers" record) = .ok declared.headers
  cost : whenPresent (fun v => parseCost declared.name (some v)) (Json.lookup "cost" record) =
    .ok declared.cost
  optedOut : declared.optedOut = optsOut record

theorem parseModelOverrides_eq_ok :
    parseModelOverrides host record name modelId = .ok declared ↔
      declared.name = name ∧ declared.modelId = modelId ∧ Declares host record declared := by
  have positive (field : String) (value : Option Json) (result : Option Rat) :
      whenPresent (fun v => assertPositiveNumber field (some v)) value = .ok result ↔
        value = result.map number ∧ ∀ q ∈ result, 0 < q :=
    whenPresent_exact _ _ fun v q => by rw [assertPositiveNumber_eq_ok, Option.some.injEq]
  have flag (error : RegistryError) (value : Option Json) (result : Option Bool) :
      whenPresent (boolean error) value = .ok result ↔ value = result.map .bool := by
    rw [whenPresent_exact .bool (fun _ => True) fun v b => by rw [boolean_eq_ok, and_true]]
    simp
  have input (field : String) (value : Option Json) (result : Option (List Modality)) :
      whenPresent (parseInput field) value = .ok result ↔
        value = result.map inputJson ∧ ∀ xs ∈ result, xs ≠ [] ∧ xs.Nodup :=
    whenPresent_exact _ _ fun v xs => parseInput_eq_ok
  have api (error : RegistryError) (value : Option Json) (result : Option ApiKind) :
      whenPresent (fun v => parseApi error (some v)) value = .ok result ↔
        value = result.map fun api => .str api.text := by
    rw [whenPresent_exact (fun api : ApiKind => .str api.text) (fun _ => True)
      fun v b => by rw [parseApi_eq_ok, Option.some.injEq, and_true]]
    simp
  have compat (field : String) (value : Option Json) (result : Option (List (String × Json))) :
      whenPresent (parseCompat field) value = .ok result ↔ value = result.map .obj := by
    rw [whenPresent_exact .obj (fun _ => True) fun v b => by rw [parseCompat_eq_ok, and_true]]
    simp
  have url (field : String) (value : Option Json) (result : Option String) :
      whenPresent (fun v => assertHttpsUrl host field (some v)) value = .ok result ↔
        value = result.map .str ∧ ∀ url ∈ result, httpsUrl host url = true :=
    whenPresent_exact _ _ fun v s => by rw [assertHttpsUrl_eq_ok, Option.some.injEq]
  simp only [parseModelOverrides, bind_eq_ok, pure_eq_ok, positive, flag, input, api, compat, url]
  constructor
  · rintro ⟨contextWindow, hw, maxTokens, ht, reasoning, hr, input, hi, api, ha, compat, hc, baseUrl,
      hb, headers, hh, cost, hp, rfl⟩
    exact ⟨rfl, rfl, hw, ht, hr, hi, ha, hc, hb, hh, hp, rfl⟩
  · rintro ⟨rfl, rfl, hw, ht, hr, hi, ha, hc, hb, hh, hp, marked⟩
    exact ⟨_, hw, _, ht, _, hr, _, hi, _, ha, _, hc, _, hb, _, hh, _, hp, by rw [← marked]⟩

/-- A catalog entry from which models are validated again: what the shipped catalog holds. -/
structure CatalogModel.Sound (host : RegistryHost) (entry : CatalogModel) : Prop where
  modelId : entry.modelId ≠ ""
  contextWindow : 0 < entry.contextWindow
  maxTokens : 0 < entry.maxTokens
  input : entry.input ≠ [] ∧ entry.input.Nodup
  baseUrl : httpsUrl host entry.baseUrl = true

/-- The model was taken from a catalog entry. -/
structure ResolvedModelConfig.From (entry : CatalogModel) (model : ResolvedModelConfig) : Prop where
  api : model.api = some entry.api
  baseUrl : model.baseUrl.isSome = true
  reasoning : model.reasoning.isSome = true
  input : model.input.isSome = true
  thinkingLevelMap : model.thinkingLevelMap = entry.thinkingLevelMap
  catalogCompat : model.catalogCompat = entry.compat

/-- The model has nothing that only a catalog supplies. -/
structure ResolvedModelConfig.ByHand (model : ResolvedModelConfig) : Prop where
  catalogContextWindow : model.catalogContextWindow = none
  thinkingLevelMap : model.thinkingLevelMap = none
  catalogCompat : model.catalogCompat = none

/-- The catalog that a model is looked up in. -/
def usedCatalog (catalog : Option Catalog) (optedOut : Bool) : Option Catalog :=
  catalog.filter fun _ => !optedOut

/-- The bounds under which a settled model is validated again as it is. -/
structure ResolvedModelConfig.Valid (host : RegistryHost) (catalog : Option Catalog)
    (model : ResolvedModelConfig) : Prop where
  name : model.name ≠ ""
  modelId : model.modelId ≠ ""
  contextWindow : 0 < model.contextWindow
  maxTokens : 0 < model.maxTokens
  input : ∀ xs ∈ model.input, xs ≠ [] ∧ xs.Nodup
  baseUrl : ∀ url ∈ model.baseUrl, httpsUrl host url = true
  headers : ∀ headers ∈ model.headers, ValidHeaders headers
  marker : model.optedOut = true → catalog.isSome = true
  backed : ∀ entries, usedCatalog catalog model.optedOut = some entries →
    ∃ entry, OrderedMap.get? entries model.modelId = some entry ∧ model.From entry
  byHand : usedCatalog catalog model.optedOut = none → model.ByHand

theorem clampedWindow_pos {window : Rat} (positive : 0 < window) : 0 < clampedWindow window := by
  rw [clampedWindow]
  split_ifs
  · decide
  · exact positive

theorem getD_mem {α : Type} {P : α → Prop} {x : Option α} {default : α} (each : ∀ a ∈ x, P a)
    (otherwise : P default) : P (x.getD default) := by
  cases x with
  | none => exact otherwise
  | some a => exact each a rfl

theorem addName_eq_ok {u : Unit} : addName seen name = .ok u ↔ name ∉ seen := by
  rw [addName, require_eq_ok]
  simp

theorem fromCatalog_eq_ok {entry : CatalogModel} {carried : SettledWindow} :
    fromCatalog entry declared providerId seen carried = .ok model ↔
      declared.name ∉ seen ∧ (∀ api ∈ declared.api, api = entry.api) ∧
        model = catalogModel entry declared carried := by
  have agrees : declared.api.all (fun api => api == entry.api) = true ↔
      ∀ api ∈ declared.api, api = entry.api := by
    cases declared.api <;> simp
  simp only [fromCatalog, bind_eq_ok, addName_eq_ok, require_eq_ok, pure_eq_ok, agrees]
  constructor
  · rintro ⟨_, fresh, _, same, rfl⟩
    exact ⟨fresh, same, rfl⟩
  · rintro ⟨fresh, same, rfl⟩
    exact ⟨(), fresh, (), same, rfl⟩

/-- A model that a sound entry and declared fields give. -/
theorem valid_catalogModel {entry : CatalogModel} {carried : SettledWindow} {entries : Catalog}
    {catalog : Option Catalog} (sound : entry.Sound host) (declares : Declares host record declared)
    (name : declared.name ≠ "") (modelId : declared.modelId ≠ "")
    (used : usedCatalog catalog declared.optedOut = some entries)
    (found : OrderedMap.get? entries declared.modelId = some entry) :
    (catalogModel entry declared carried).Valid host catalog where
  name
  modelId
  contextWindow := getD_mem declares.contextWindow.2 (clampedWindow_pos sound.contextWindow)
  maxTokens := getD_mem declares.maxTokens.2 sound.maxTokens
  input := by
    rintro _ ⟨⟩
    exact getD_mem declares.input.2 sound.input
  baseUrl := by
    rintro _ ⟨⟩
    exact getD_mem declares.baseUrl.2 sound.baseUrl
  headers := (parseHeaders_eq_ok declares.headers).1
  marker := by
    intro _
    obtain ⟨held, -⟩ := Option.filter_eq_some_iff.mp used
    rw [held]
    rfl
  backed := by
    intro others same
    obtain rfl := Option.some.inj (used.symm.trans same)
    exact ⟨entry, found, rfl, rfl, rfl, rfl, rfl, rfl⟩
  byHand := fun absent => by
    rw [show (catalogModel entry declared carried).optedOut = declared.optedOut from rfl, used] at absent
    cases absent

theorem valid_declaredModel {carried : SettledWindow} {maxTokens : Rat} {cost : Cost}
    {catalog : Option Catalog} (declares : Declares host record declared)
    (positive : 0 < maxTokens) (name : declared.name ≠ "") (modelId : declared.modelId ≠ "")
    (marker : declared.optedOut = true → catalog.isSome = true)
    (used : usedCatalog catalog declared.optedOut = none) :
    (declaredModel declared maxTokens cost carried).Valid host catalog where
  name
  modelId
  contextWindow := getD_mem declares.contextWindow.2 (by decide)
  maxTokens := positive
  input := declares.input.2
  baseUrl := declares.baseUrl.2
  headers := (parseHeaders_eq_ok declares.headers).1
  marker
  backed := fun entries held => by
    rw [show (declaredModel declared maxTokens cost carried).optedOut = declared.optedOut from rfl,
      used] at held
    cases held
  byHand := fun _ => ⟨rfl, rfl, rfl⟩

end Models

/-! ## Provenance of windows -/

section Provenance

variable {host : RegistryHost} {catalog : Option Catalog} {declared : ModelConfig}
  {seen : List String} {model : ResolvedModelConfig} {providerId : String}

/-- The catalog entry behind a model, if it has one. -/
def ResolvedModelConfig.catalogEntry (catalog : Option Catalog) (model : ResolvedModelConfig) :
    Option CatalogModel :=
  (usedCatalog catalog model.optedOut).bind fun entries => OrderedMap.get? entries model.modelId

/-- Where a window came from, when its author stated one or did not. -/
structure WindowProvenance (catalog : Option Catalog) (stated : Bool) (model : ResolvedModelConfig) :
    Prop where
  source : model.contextWindowSource = .declared ↔ stated = true
  discarded : ∀ w, model.catalogContextWindow = some w ↔ stated = false ∧
    ∃ entry, model.catalogEntry catalog = some entry ∧ defaultContextWindow < entry.contextWindow ∧
      entry.contextWindow = w
  clamped : model.catalogContextWindow.isSome = true → model.contextWindow = defaultContextWindow

theorem catalogModel_provenance {entry : CatalogModel} {entries : Catalog}
    (used : usedCatalog catalog declared.optedOut = some entries)
    (found : OrderedMap.get? entries declared.modelId = some entry) :
    WindowProvenance catalog declared.contextWindow.isSome
      (catalogModel entry declared ⟨none, none⟩) where
  source := by
    simp only [catalogModel, Option.getD_none, catalogSource]
    split_ifs <;> simp_all
  discarded := by
    intro w
    have behind : (catalogModel entry declared ⟨none, none⟩).catalogEntry catalog = some entry := by
      rw [ResolvedModelConfig.catalogEntry]
      simp only [catalogModel, used, Option.bind_some, found]
    have window : (catalogModel entry declared ⟨none, none⟩).catalogContextWindow =
        discardedWindow declared entry := rfl
    rw [behind, window, discardedWindow]
    constructor
    · intro discards
      split_ifs at discards with clamps
      exact ⟨by simpa using clamps.1, entry, rfl, clamps.2, Option.some.inj discards⟩
    · rintro ⟨unstated, _, ⟨⟩, larger, rfl⟩
      exact if_pos ⟨by simpa using unstated, larger⟩
  clamped := by
    simp only [catalogModel, Option.none_or, discardedWindow]
    split_ifs with clamps
    · intro _
      rw [Option.isNone_iff_eq_none.mp clamps.1, Option.getD_none, clampedWindow, if_pos clamps.2]
    · simp

theorem declaredModel_provenance {maxTokens : Rat} {cost : Cost} {source : Option Rat}
    (unused : usedCatalog catalog declared.optedOut = none) :
    WindowProvenance catalog declared.contextWindow.isSome
      (declaredModel declared maxTokens cost ⟨none, source⟩) where
  source := by
    simp only [declaredModel, Option.getD_none]
    split_ifs <;> simp_all
  discarded := by
    intro w
    have behind : (declaredModel declared maxTokens cost ⟨none, source⟩).catalogEntry catalog = none := by
      rw [ResolvedModelConfig.catalogEntry]
      simp only [declaredModel, unused, Option.bind_none]
    have window : (declaredModel declared maxTokens cost ⟨none, source⟩).catalogContextWindow = none :=
      rfl
    rw [behind, window]
    simp
  clamped := by simp [declaredModel]

/-- What an accepted entry becomes. Without settled provenance, its window comes from what it
states; its headers are kept but for the name that cannot be assigned. -/
def Settles (catalog : Option Catalog) (value : Json) (model : ResolvedModelConfig) : Prop :=
  ∃ record, value = .obj record ∧ (settledWindowProvenance record = ⟨none, none⟩ →
      WindowProvenance catalog (Json.lookup "contextWindow" record).isSome model) ∧
    model.headers.getD [] = (statedHeaders (Json.lookup "headers" record)).filter assigned

/-- The resolvable models of the shipped catalog have an id, positive limits, distinct modalities
and an https endpoint. -/
def RegistryHost.Sound (host : RegistryHost) : Prop :=
  ∀ builtin ∈ host.builtins, ∀ model ∈ builtin.2, ∀ api, resolvableApi model.api = some api →
    (model.entry api).Sound host

/-- A catalog whose entries stand under their own ids, and are sound if the host's are. -/
structure KeyedCatalog (host : RegistryHost) (entries : Catalog) : Prop where
  each : ∀ id entry, (id, entry) ∈ entries →
    id = entry.modelId ∧ (host.Sound → entry.Sound host)
  distinct : (entries.map (·.1)).Nodup

theorem KeyedCatalog.get? {entries : Catalog} (keyed : KeyedCatalog host entries) {id : String}
    {entry : CatalogModel} (found : OrderedMap.get? entries id = some entry) (sound : host.Sound) :
    entry.Sound host :=
  (keyed.each id entry (OrderedMap.mem_of_get? found)).2 sound

theorem checkMarker_eq_ok {record : List (String × Json)} {name : String} {u : Unit} :
    checkMarker providerId catalog record name = .ok u ↔
      ((Json.lookup "catalog" record).isNone ∨ optsOut record = true) ∧
        (optsOut record = true → catalog.isSome = true) := by
  simp only [checkMarker, bind_eq_ok, require_eq_ok, Bool.or_eq_true]
  cases optsOut record <;> cases catalog <;> simp

theorem parseModel_eq_ok {value : Json} (keyed : ∀ entries ∈ catalog, KeyedCatalog host entries)
    (h : parseModel host providerId catalog seen value = .ok model) :
    (host.Sound → model.Valid host catalog) ∧ model.name ∉ seen ∧ Settles catalog value model := by
  cases value with
  | obj record =>
      simp only [parseModel, bind_eq_ok, nonEmptyString_eq_ok, checkMarker_eq_ok] at h
      obtain ⟨modelId, ⟨-, filled⟩, name, ⟨-, named⟩, _, ⟨-, marker⟩, h⟩ := h
      split at h
      · next entries used =>
          rw [parseCatalogModel] at h
          split at h
          · cases h
          · next entry found =>
              obtain ⟨declared, read, taken⟩ := bind_eq_ok.mp h
              obtain ⟨rfl, rfl, declares⟩ := parseModelOverrides_eq_ok.mp read
              obtain ⟨fresh, -, rfl⟩ := fromCatalog_eq_ok.mp taken
              rw [← declares.optedOut] at used
              have held : catalog = some entries := (Option.filter_eq_some_iff.mp used).1
              refine ⟨fun sound => valid_catalogModel ((keyed entries held).get? found sound) declares
                named filled used found, fresh, record, rfl, fun unsettled => ?_, (parseHeaders_eq_ok declares.headers).2⟩
              rw [unsettled, declares.contextWindow.1, Option.isSome_map]
              exact catalogModel_provenance used found
      · next unused =>
          simp only [parseDeclaredModel, bind_eq_ok, addName_eq_ok, assertPositiveNumber_eq_ok,
            parseModelOverrides_eq_ok, pure_eq_ok] at h
          obtain ⟨_, fresh, maxTokens, ⟨-, positive⟩, cost, -, declared, ⟨rfl, rfl, declares⟩, rfl⟩ := h
          rw [← declares.optedOut] at unused marker
          refine ⟨fun _ => valid_declaredModel declares positive named filled marker unused, fresh, record,
            rfl, fun unsettled => ?_, (parseHeaders_eq_ok declares.headers).2⟩
          rw [unsettled, declares.contextWindow.1, Option.isSome_map]
          exact declaredModel_provenance unused
  | _ => cases h

end Provenance

end AdCoder.Registry
