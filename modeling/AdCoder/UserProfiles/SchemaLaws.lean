import AdCoder.UserProfiles.Schema

/-!
# What validation of a user profile promises

Each reader of a field accepts just the values that it describes, so that a record is
validated again as it is.
-/

namespace AdCoder.UserProfiles

open Foundation
open Profiles (Profile ProfileEntry ofText? parseProfile)

/-! ## Checked maps -/

section CheckedMaps

variable {α β ε : Type} {f : α → Except ε β} {items : List α} {results : List β}

theorem mapM_eq_ok : items.mapM f = .ok results ↔
    List.Forall₂ (fun x y => f x = .ok y) items results := by
  induction items generalizing results with
  | nil => simp [pure, Except.pure, eq_comm]
  | cons x rest ih =>
      simp only [List.mapM_cons, bind_eq_ok, pure_eq_ok, List.forall₂_cons_left_iff, ih]
      constructor
      · rintro ⟨y, first, ys, later, rfl⟩
        exact ⟨y, ys, first, later, rfl⟩
      · rintro ⟨y, ys, first, later, rfl⟩
        exact ⟨y, first, ys, later, rfl⟩

/-- What each step of a checked map promises holds of every result. -/
theorem forall_mem_of_mapM {P : β → Prop} (step : ∀ x ∈ items, ∀ y, f x = .ok y → P y)
    (h : items.mapM f = .ok results) : ∀ y ∈ results, P y := by
  have related := mapM_eq_ok.mp h
  clear h
  induction related with
  | nil => simp
  | cons first _ ih =>
      exact List.forall_mem_cons.mpr ⟨step _ List.mem_cons_self _ first,
        ih fun x mem => step x (List.mem_cons_of_mem _ mem)⟩

theorem mapM_map_eq_ok {write : β → α} (back : ∀ y ∈ results, f (write y) = .ok y) :
    (results.map write).mapM f = .ok results := by
  rw [mapM_eq_ok, List.forall₂_map_left_iff, List.forall₂_same]
  exact back

end CheckedMaps

/-! ## Fields -/

section Fields

variable {host : ProfileHost} {detail : String} {value : Option Json} {s : String}

@[simp] theorem object_eq_ok {fields : List (String × Json)} :
    object detail value = .ok fields ↔ value = some (.obj fields) := by
  unfold object
  split <;> simp_all

@[simp] theorem array_eq_ok {items : List Json} :
    array detail value = .ok items ↔ value = some (.arr items) := by
  unfold array
  split <;> simp_all

@[simp] theorem string_eq_ok :
    string detail value = .ok s ↔ value = some (.str s) ∧ filled s = true := by
  unfold string
  split
  · next t =>
      split_ifs with full
      · constructor
        · intro h
          obtain rfl := Except.ok.inj h
          exact ⟨rfl, full⟩
        · rintro ⟨same, -⟩
          rw [Json.str.inj (Option.some.inj same)]
      · constructor
        · rintro ⟨⟩
        · rintro ⟨same, full'⟩
          rw [← Json.str.inj (Option.some.inj same)] at full'
          exact absurd full' full
  · next other =>
      constructor
      · rintro ⟨⟩
      · rintro ⟨rfl, -⟩
        exact absurd rfl (other s)

@[simp] theorem finite_eq_ok {q : Rat} :
    finite detail value = .ok q ↔ value = some (.num (.finite q)) := by
  unfold finite
  split <;> simp_all

@[simp] theorem date_eq_ok :
    date detail value = .ok s ↔ value = some (.str s) ∧ filled s = true ∧ Iso.isDate s = true := by
  simp only [date, bind_eq_ok, string_eq_ok, require_eq_ok, pure_eq_ok]
  constructor
  · rintro ⟨_, ⟨rfl, full⟩, _, valid, rfl⟩
    exact ⟨rfl, full, valid⟩
  · rintro ⟨rfl, full, valid⟩
    exact ⟨s, ⟨rfl, full⟩, (), valid, rfl⟩

/-- The sources that a profile may name. -/
def acceptsSource (host : ProfileHost) (source : String) : Bool :=
  match host.parseUrl source with
  | none => sourceLabels.contains source
  | some url => url.protocol == "https:" &&
      (url.username == "" && url.password == "" && url.search == "" && url.hash == "")

theorem checkSource_eq_ok {u : Unit} :
    checkSource host detail s = .ok u ↔ acceptsSource host s = true := by
  cases parsed : host.parseUrl s with
  | none => simp only [checkSource, acceptsSource, parsed, require_eq_ok]
  | some url =>
      simp only [checkSource, acceptsSource, parsed, require_bind_eq_ok, require_eq_ok,
        Bool.and_eq_true]

@[simp] theorem safeSource_eq_ok : safeSource host detail value = .ok s ↔
    value = some (.str s) ∧ filled s = true ∧ acceptsSource host s = true := by
  simp only [safeSource, bind_eq_ok, string_eq_ok, checkSource_eq_ok, pure_eq_ok]
  constructor
  · rintro ⟨_, ⟨rfl, full⟩, _, valid, rfl⟩
    exact ⟨rfl, full, valid⟩
  · rintro ⟨rfl, full, valid⟩
    exact ⟨s, ⟨rfl, full⟩, (), valid, rfl⟩

theorem listed_eq_ok {α : Type} {values : List α} {text : α → String} {x : α}
    (all : ∀ x, x ∈ values) (injective : Function.Injective text) :
    listed values text detail value = .ok x ↔ value = some (.str (text x)) := by
  unfold listed
  constructor
  · intro h
    split at h
    · next y found =>
        obtain rfl := Except.ok.inj h
        unfold ofText? at found
        split at found
        · rw [show text y = _ by simpa using List.find?_some found]
        · cases found
    · cases h
  · rintro rfl
    rw [Profiles.ofText?_text all injective]

@[simp] theorem listed_kind_eq_ok {kind : EconomicRecordKind} :
    listed economicKinds EconomicRecordKind.text detail value = .ok kind ↔
      value = some (.str kind.text) :=
  listed_eq_ok (fun x => by cases x <;> decide) fun x y => by cases x <;> cases y <;> decide

@[simp] theorem listed_confidence_eq_ok {confidence : EconomicConfidence} :
    listed confidences EconomicConfidence.text detail value = .ok confidence ↔
      value = some (.str confidence.text) :=
  listed_eq_ok (fun x => by cases x <;> decide) fun x y => by cases x <;> cases y <;> decide

theorem optional_eq_ok {α : Type} {read : Json → Except UserProfileError α} {result : Option α} :
    optional read value = .ok result ↔
      (value = none ∧ result = none) ∨ ∃ v x, value = some v ∧ read v = .ok x ∧ result = some x := by
  cases value with
  | none => simp [optional, eq_comm]
  | some v =>
      rw [optional, map_eq_ok]
      constructor
      · rintro ⟨x, same, rfl⟩
        exact .inr ⟨v, x, rfl, same, rfl⟩
      · rintro (⟨⟨⟩, -⟩ | ⟨_, x, ⟨⟩, same, rfl⟩)
        exact ⟨x, same, rfl⟩

theorem optional_string_eq_ok {text : Option String} :
    optional (fun v => string detail (some v)) value = .ok text ↔
      value = text.map .str ∧ ∀ s ∈ text, filled s = true := by
  rw [optional_eq_ok]
  constructor
  · rintro (⟨rfl, rfl⟩ | ⟨v, s, rfl, same, rfl⟩)
    · exact ⟨rfl, fun _ mem => by cases mem⟩
    · obtain ⟨same, full⟩ := string_eq_ok.mp same
      refine ⟨same, ?_⟩
      rintro _ ⟨⟩
      exact full
  · rintro ⟨rfl, full⟩
    cases text with
    | none => exact .inl ⟨rfl, rfl⟩
    | some s => exact .inr ⟨.str s, s, rfl, string_eq_ok.mpr ⟨rfl, full s rfl⟩, rfl⟩

theorem exactKeys_eq_ok {fields : List (String × Json)} {keys : List String} {u : Unit} :
    exactKeys fields keys detail = .ok u ↔ ∀ field ∈ fields, field.1 ∈ keys := by
  rw [exactKeys, require_eq_ok, List.all_eq_true]
  simp

end Fields

/-! ## Records -/

def economicRecordKeys : List String :=
  ["id", "observedAt", "provider", "model", "kind", "value", "unit", "source", "confidence",
    "previousId"]

/-- A record whose fields are in bounds. -/
structure EconomicRecord.Valid (host : ProfileHost) (record : EconomicRecord) : Prop where
  id : filled record.id = true
  observedAt : filled record.observedAt = true ∧ Iso.isTimestamp record.observedAt = true
  provider : filled record.provider = true
  model : filled record.model = true
  unit : filled record.unit = true
  source : filled record.source = true ∧ acceptsSource host record.source = true
  previousId : ∀ previousId ∈ record.previousId, filled previousId = true

/-- An object holds the fields of a record. -/
structure EconomicRecord.Describes (fields : List (String × Json)) (record : EconomicRecord) :
    Prop where
  known : ∀ field ∈ fields, field.1 ∈ economicRecordKeys
  id : Json.lookup "id" fields = some (.str record.id)
  observedAt : Json.lookup "observedAt" fields = some (.str record.observedAt)
  provider : Json.lookup "provider" fields = some (.str record.provider)
  model : Json.lookup "model" fields = some (.str record.model)
  kind : Json.lookup "kind" fields = some (.str record.kind.text)
  value : Json.lookup "value" fields = some (.num (.finite record.value))
  unit : Json.lookup "unit" fields = some (.str record.unit)
  source : Json.lookup "source" fields = some (.str record.source)
  confidence : Json.lookup "confidence" fields = some (.str record.confidence.text)
  previousId : Json.lookup "previousId" fields = record.previousId.map .str

theorem parseEconomicRecord_eq_ok {host : ProfileHost} {value : Json} {record : EconomicRecord} :
    parseEconomicRecord host value = .ok record ↔
      ∃ fields, value = .obj fields ∧ record.Valid host ∧ record.Describes fields := by
  simp only [parseEconomicRecord, bind_eq_ok, object_eq_ok, exactKeys_eq_ok, string_eq_ok,
    require_eq_ok, listed_kind_eq_ok, listed_confidence_eq_ok, finite_eq_ok, safeSource_eq_ok,
    pure_eq_ok, Option.some.injEq, optional_string_eq_ok]
  constructor
  · rintro ⟨fields, rfl, -, known, observedAt, ⟨hat, full⟩, -, stamp, kind, hkind, confidence,
      hconfidence, previousId, ⟨hprevious, fullPrevious⟩, id, ⟨hid, fullId⟩, provider,
      ⟨hprovider, fullProvider⟩, model, ⟨hmodel, fullModel⟩, q, hvalue, unit, ⟨hunit, fullUnit⟩,
      source, ⟨hsource, fullSource, accepted⟩, rfl⟩
    exact ⟨fields, rfl,
      ⟨fullId, ⟨full, stamp⟩, fullProvider, fullModel, fullUnit, ⟨fullSource, accepted⟩,
        fullPrevious⟩,
      ⟨known, hid, hat, hprovider, hmodel, hkind, hvalue, hunit, hsource, hconfidence, hprevious⟩⟩
  · rintro ⟨fields, rfl, valid, described⟩
    exact ⟨fields, rfl, (), described.known, _, ⟨described.observedAt, valid.observedAt.1⟩, (),
      valid.observedAt.2, _, described.kind, _, described.confidence, _,
      ⟨described.previousId, valid.previousId⟩, _, ⟨described.id, valid.id⟩, _,
      ⟨described.provider, valid.provider⟩, _, ⟨described.model, valid.model⟩, _,
      described.value, _, ⟨described.unit, valid.unit⟩, _, ⟨described.source, valid.source⟩, rfl⟩

theorem EconomicRecord.describes_toJson (record : EconomicRecord) : ∃ fields,
    record.toJson = .obj fields ∧ record.Describes fields := by
  refine ⟨_, rfl, ?_, ?_, ?_, ?_, ?_, ?_, ?_, ?_, ?_, ?_, ?_⟩
  · rintro ⟨key, value⟩ mem
    have listed := Json.mem_fields.mp mem
    simp only [List.mem_cons, List.not_mem_nil, or_false, Prod.mk.injEq] at listed
    simp only [economicRecordKeys, List.mem_cons, List.not_mem_nil, or_false]
    tauto
  all_goals simp

theorem parseEconomicRecord_again {host : ProfileHost} {record : EconomicRecord}
    (valid : record.Valid host) : parseEconomicRecord host record.toJson = .ok record := by
  obtain ⟨fields, same, described⟩ := record.describes_toJson
  exact parseEconomicRecord_eq_ok.mpr ⟨fields, same, valid, described⟩

def subscriptionCapacityRangeKeys : List String :=
  ["provider", "unit", "lowerBound", "upperBound", "observedOn", "source", "confidence"]

/-- A range whose fields are in bounds. -/
structure SubscriptionCapacityRange.Valid (host : ProfileHost) (range : SubscriptionCapacityRange) :
    Prop where
  provider : filled range.provider = true
  unit : filled range.unit = true
  bounds : 0 ≤ range.lowerBound ∧ 0 ≤ range.upperBound ∧ range.lowerBound ≤ range.upperBound
  observedOn : filled range.observedOn = true ∧ Iso.isDate range.observedOn = true
  source : filled range.source = true ∧ acceptsSource host range.source = true

/-- An object holds the fields of a range. -/
structure SubscriptionCapacityRange.Describes (fields : List (String × Json))
    (range : SubscriptionCapacityRange) : Prop where
  known : ∀ field ∈ fields, field.1 ∈ subscriptionCapacityRangeKeys
  provider : Json.lookup "provider" fields = some (.str range.provider)
  unit : Json.lookup "unit" fields = some (.str range.unit)
  lowerBound : Json.lookup "lowerBound" fields = some (.num (.finite range.lowerBound))
  upperBound : Json.lookup "upperBound" fields = some (.num (.finite range.upperBound))
  observedOn : Json.lookup "observedOn" fields = some (.str range.observedOn)
  source : Json.lookup "source" fields = some (.str range.source)
  confidence : Json.lookup "confidence" fields = some (.str range.confidence.text)

theorem parseSubscriptionCapacityRange_eq_ok {host : ProfileHost} {value : Json}
    {range : SubscriptionCapacityRange} :
    parseSubscriptionCapacityRange host value = .ok range ↔
      ∃ fields, value = .obj fields ∧ range.Valid host ∧ range.Describes fields := by
  simp only [parseSubscriptionCapacityRange, bind_eq_ok, object_eq_ok, exactKeys_eq_ok,
    string_eq_ok, require_eq_ok, listed_confidence_eq_ok, finite_eq_ok, safeSource_eq_ok,
    date_eq_ok, pure_eq_ok, Option.some.injEq, Bool.not_eq_true', Bool.or_eq_false_iff,
    decide_eq_false_iff_not, Rat.not_lt]
  constructor
  · rintro ⟨fields, rfl, -, known, low, hlow, high, hhigh, -, ⟨⟨low0, high0⟩, ordered⟩, confidence,
      hconfidence, provider, ⟨hprovider, fullProvider⟩, unit, ⟨hunit, fullUnit⟩, observedOn,
      ⟨hon, fullOn, day⟩, source, ⟨hsource, fullSource, accepted⟩, rfl⟩
    exact ⟨fields, rfl,
      ⟨fullProvider, fullUnit, ⟨low0, high0, ordered⟩, ⟨fullOn, day⟩, ⟨fullSource, accepted⟩⟩,
      ⟨known, hprovider, hunit, hlow, hhigh, hon, hsource, hconfidence⟩⟩
  · rintro ⟨fields, rfl, valid, described⟩
    exact ⟨fields, rfl, (), described.known, _, described.lowerBound, _, described.upperBound, (),
      ⟨⟨valid.bounds.1, valid.bounds.2.1⟩, valid.bounds.2.2⟩, _, described.confidence, _,
      ⟨described.provider, valid.provider⟩, _, ⟨described.unit, valid.unit⟩, _,
      ⟨described.observedOn, valid.observedOn⟩, _, ⟨described.source, valid.source⟩, rfl⟩

theorem SubscriptionCapacityRange.describes_toJson (range : SubscriptionCapacityRange) :
    ∃ fields, range.toJson = .obj fields ∧ range.Describes fields := by
  refine ⟨_, rfl, ?_, ?_, ?_, ?_, ?_, ?_, ?_, ?_⟩
  · rintro ⟨key, value⟩ mem
    have listed := Json.mem_fields.mp mem
    simp only [List.mem_cons, List.not_mem_nil, or_false, Prod.mk.injEq] at listed
    simp only [subscriptionCapacityRangeKeys, List.mem_cons, List.not_mem_nil, or_false]
    tauto
  all_goals simp

theorem parseSubscriptionCapacityRange_again {host : ProfileHost}
    {range : SubscriptionCapacityRange} (valid : range.Valid host) :
    parseSubscriptionCapacityRange host range.toJson = .ok range := by
  obtain ⟨fields, same, described⟩ := range.describes_toJson
  exact parseSubscriptionCapacityRange_eq_ok.mpr ⟨fields, same, valid, described⟩

/-! ## Routing -/

def calibratedRoutingKeys : List String :=
  ["inventory", "modelsProfile", "profile", "observedOn", "source", "confidence"]

/-- Routing whose fields are in bounds. -/
structure CalibratedRouting.Valid (host : ProfileHost) (routing : CalibratedRouting) : Prop where
  modelsProfile : filled routing.modelsProfile = true
  profile : routing.profile.Valid
  observedOn : filled routing.observedOn = true ∧ Iso.isDate routing.observedOn = true
  source : filled routing.source = true ∧ acceptsSource host routing.source = true

/-- A value is the routing profile, with no other field than those of a profile. -/
def DescribesProfile (value : Json) (profile : Profile) : Prop :=
  ∃ fields entries, value = .obj fields ∧ (∀ field ∈ fields, field.1 ∈ ["entries"]) ∧
    Json.lookup "entries" fields = some (.arr entries) ∧
    (∀ item ∈ entries, checkProfileEntry item = .ok ()) ∧ parseProfile value = .ok profile

/-- An object holds the fields of a routing. -/
structure CalibratedRouting.Describes (fields : List (String × Json))
    (routing : CalibratedRouting) : Prop where
  known : ∀ field ∈ fields, field.1 ∈ calibratedRoutingKeys
  inventory : Json.lookup "inventory" fields = none
  modelsProfile : Json.lookup "modelsProfile" fields = some (.str routing.modelsProfile)
  profile : ∃ value, Json.lookup "profile" fields = some value ∧
    DescribesProfile value routing.profile
  observedOn : Json.lookup "observedOn" fields = some (.str routing.observedOn)
  source : Json.lookup "source" fields = some (.str routing.source)
  confidence : Json.lookup "confidence" fields = some (.str routing.confidence.text)

theorem mapError_eq_ok {ε ε' α : Type} {x : Except ε α} {f : ε → ε'} {a : α} :
    x.mapError f = .ok a ↔ x = .ok a := by
  cases x <;> simp [Except.mapError]

theorem parseCalibratedRouting_eq_ok {host : ProfileHost} {value : Json}
    {routing : CalibratedRouting} :
    parseCalibratedRouting host value = .ok routing ↔
      ∃ fields, value = .obj fields ∧ routing.Valid host ∧ routing.Describes fields := by
  simp only [parseCalibratedRouting, bind_eq_ok, object_eq_ok, array_eq_ok, exactKeys_eq_ok,
    string_eq_ok, require_eq_ok, listed_confidence_eq_ok, safeSource_eq_ok, date_eq_ok, pure_eq_ok,
    Option.some.injEq, mapError_eq_ok]
  constructor
  · rintro ⟨fields, rfl, -, known, -, absent, -, -, confidence, hconfidence, inner, hprofile, -,
      only, items, hitems, ⟨⟩, checked, modelsProfile, ⟨hmodels, fullModels⟩, profile, parsed,
      observedOn, ⟨hon, fullOn, day⟩, source, ⟨hsource, fullSource, accepted⟩, rfl⟩
    exact ⟨fields, rfl,
      ⟨fullModels, Profiles.parseProfile_eq_ok parsed, ⟨fullOn, day⟩, ⟨fullSource, accepted⟩⟩,
      ⟨known, Option.isNone_iff_eq_none.mp absent, hmodels,
        ⟨_, hprofile, inner, items, rfl, only, hitems, forM_eq_ok.mp checked, parsed⟩, hon, hsource,
        hconfidence⟩⟩
  · rintro ⟨fields, rfl, valid, described⟩
    obtain ⟨_, hprofile, inner, items, rfl, only, hitems, checked, parsed⟩ := described.profile
    exact ⟨fields, rfl, (), described.known, (), Option.isNone_iff_eq_none.mpr described.inventory,
      (), by rw [described.modelsProfile]; rfl, _, described.confidence, inner, hprofile, (), only,
      items, hitems, (), forM_eq_ok.mpr checked, _, ⟨described.modelsProfile, valid.modelsProfile⟩,
      _, parsed, _, ⟨described.observedOn, valid.observedOn⟩, _,
      ⟨described.source, valid.source⟩, rfl⟩

theorem checkProfileEntry_toJson (entry : ProfileEntry) :
    checkProfileEntry entry.toJson = .ok () := by
  simp only [checkProfileEntry, ProfileEntry.toJson, Json.object, bind_eq_ok, object_eq_ok,
    Option.some.injEq, Json.obj.injEq]
  refine ⟨_, rfl, exactKeys_eq_ok.mpr ?_⟩
  rintro ⟨key, value⟩ mem
  have listed := Json.mem_fields.mp mem
  simp only [List.mem_cons, List.not_mem_nil, or_false, Prod.mk.injEq] at listed ⊢
  tauto

theorem describesProfile_toJson {profile : Profile} (valid : profile.Valid) :
    DescribesProfile profile.toJson profile := by
  refine ⟨_, profile.entries.map (·.toJson), rfl, ?_, ?_, ?_, Profiles.parseProfile_again valid⟩
  · simp
  · simp
  · rintro _ mem
    obtain ⟨entry, -, rfl⟩ := List.mem_map.mp mem
    exact checkProfileEntry_toJson entry

theorem CalibratedRouting.describes_toJson {routing : CalibratedRouting}
    (valid : routing.profile.Valid) :
    ∃ fields, routing.toJson = .obj fields ∧ routing.Describes fields := by
  refine ⟨_, rfl, ?_, ?_, ?_, ⟨routing.profile.toJson, ?_, describesProfile_toJson valid⟩,
    ?_, ?_, ?_⟩
  · rintro ⟨key, value⟩ mem
    have listed := Json.mem_fields.mp mem
    simp only [List.mem_cons, List.not_mem_nil, or_false, Prod.mk.injEq] at listed
    simp only [calibratedRoutingKeys, List.mem_cons, List.not_mem_nil, or_false]
    tauto
  all_goals simp

theorem parseCalibratedRouting_again {host : ProfileHost} {routing : CalibratedRouting}
    (valid : routing.Valid host) : parseCalibratedRouting host routing.toJson = .ok routing := by
  obtain ⟨fields, same, described⟩ := CalibratedRouting.describes_toJson valid.profile
  exact parseCalibratedRouting_eq_ok.mpr ⟨fields, same, valid, described⟩

end AdCoder.UserProfiles
