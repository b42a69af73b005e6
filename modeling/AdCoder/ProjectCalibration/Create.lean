import AdCoder.Foundation.OrderedMaps
import AdCoder.ProjectCalibration.SnapshotLaws

/-!
# Creating a snapshot

The economic entries of a new snapshot are the latest records of the models in scope, and
what the models declare where there is no record. Records are kept under the text of their
key, in which a separator stands between the parts.
-/

namespace AdCoder.ProjectCalibration

open Foundation UserProfiles
open Profiles (ProfileEntry)

/-- A host that also compares ids in its locale. -/
structure CalibrationHost extends ProfileHost where
  localeCompare : String → String → Int

structure SourceProvider where
  id : String
  models : List String
  deriving DecidableEq

/-- What a model declares; the validation of the configuration keeps its numbers finite. -/
structure ModelsProfileFact where
  provider : String
  model : String
  input : Rat
  output : Rat
  cacheRead : Option Rat
  cacheWrite : Option Rat
  contextWindow : Option Rat
  deriving DecidableEq

structure CalibrationSourceRef where
  name : String
  providers : List SourceProvider
  facts : List ModelsProfileFact
  deriving DecidableEq

structure ProjectCalibrationLimits where
  maxEconomics : Option JsNumber
  maxCapacityRanges : Option JsNumber

def limit (value : Option JsNumber) (name : String) (fallback : Nat) :
    Except CalibrationFailure Nat :=
  let n := value.getD (.finite fallback)
  match n with
  | .finite q =>
      if n.isSafeInteger = true ∧ 0 ≤ q then .ok q.num.toNat
      else .error (snapshotError name (name ++ " must be non-negative"))
  | _ => .error (snapshotError name (name ++ " must be non-negative"))

/-! ## Keys -/

def pairKey (provider model : String) : String := provider ++ "\u0000" ++ model

/-- The text of the key of a record. -/
def compositeKey (record : EconomicRecord) : String :=
  pairKey record.provider record.model ++ "\u0000" ++ record.kind.text ++ "\u0000" ++ record.unit

/-- `providerModels.has(…)`. -/
def serves (source : CalibrationSourceRef) (provider model : String) : Bool :=
  source.providers.any fun declared =>
    declared.models.any fun served => pairKey declared.id served == pairKey provider model

/-! ## Entries -/

def ModelsProfileFact.declared (fact : ModelsProfileFact) :
    List (EconomicRecordKind × String × Option Rat) := [
  (.price, "usd_per_million_input", some fact.input),
  (.price, "usd_per_million_output", some fact.output),
  (.price, "usd_per_million_cached_input", fact.cacheRead),
  (.price, "usd_per_million_cache_write", fact.cacheWrite),
  (.contextLimit, "tokens", fact.contextWindow)]

/-- The record that a declared number becomes; its id is made of its key. -/
def declaredRecord (declaredOn : String) (fact : ModelsProfileFact) (kind : EconomicRecordKind)
    (unit : String) (value : Rat) : EconomicRecord :=
  let record : EconomicRecord := {
    id := "", observedAt := declaredOn, provider := fact.provider, model := fact.model, kind, value
    unit, source := "project-calibration", confidence := .estimated, previousId := none }
  { record with id := "declared:" ++ compositeKey record }

/-- All that the source declares, in order. -/
def declarations (source : CalibrationSourceRef) (declaredOn : String) : List EconomicRecord :=
  source.facts.flatMap fun fact => fact.declared.filterMap fun (kind, unit, value) =>
    value.map (declaredRecord declaredOn fact kind unit)

/-- One record of the journal: it replaces an earlier one that was observed before it. -/
def keepLatest (source : CalibrationSourceRef) (latest : List (String × EconomicRecord))
    (record : EconomicRecord) : List (String × EconomicRecord) :=
  if serves source record.provider record.model then
    match OrderedMap.get? latest (compositeKey record) with
    | none => OrderedMap.put (compositeKey record) record latest
    | some old =>
        if codeUnits old.observedAt < codeUnits record.observedAt then
          OrderedMap.put (compositeKey record) record latest
        else latest
  else latest

/-- One declared number: it fills a key that has no record. -/
def fillDeclared (source : CalibrationSourceRef) (latest : List (String × EconomicRecord))
    (record : EconomicRecord) : List (String × EconomicRecord) :=
  if serves source record.provider record.model then
    if OrderedMap.has latest (compositeKey record) then latest
    else OrderedMap.put (compositeKey record) record latest
  else latest

/-- `latest`, after both loops. -/
def latestRecords (source : CalibrationSourceRef) (records declared : List EconomicRecord) :
    List (String × EconomicRecord) :=
  declared.foldl (fillDeclared source) (records.foldl (keepLatest source) [])

/-- `observedAt.slice(0, 10)`, of a timestamp. -/
def dayOf (observedAt : String) : String := String.ofList (observedAt.toList.take 10)

def sortedEntries (host : CalibrationHost) (latest : List (String × EconomicRecord)) :
    List ProjectEconomicSnapshot :=
  ((latest.map (·.2)).mergeSort fun a b => host.localeCompare a.id b.id ≤ 0).map fun record =>
    entryOf record (dayOf record.observedAt)

/-- The entry of a routing whose model no provider of the source serves. -/
def outsideEntry (source : CalibrationSourceRef) (entries : List ProfileEntry) :
    Option ProfileEntry :=
  entries.find? fun entry =>
    !(source.providers.any fun provider => provider.models.contains entry.model)

def createProjectCalibrationSnapshot (host : CalibrationHost) (value : Json)
    (source : CalibrationSourceRef) (limits : ProjectCalibrationLimits) :
    Except CalibrationFailure ProjectCalibrationSnapshot := do
  let profile ← (parseUserProfile host.toProfileHost value).mapError .profile
  match profile.calibratedRouting.find? fun routing => routing.modelsProfile == source.name with
  | none => throw (.profile ⟨.notFound, source.name, "calibrated models profile not found"⟩)
  | some routing =>
      match outsideEntry source routing.profile.entries with
      | some outside => throw (snapshotError outside.model ("calibrated routing model \"" ++
          outside.model ++ "\" is not served by models profile \"" ++ source.name ++ "\""))
      | none =>
          let maxEconomics ← limit limits.maxEconomics "maxEconomics" 256
          let maxCapacity ← limit limits.maxCapacityRanges "maxCapacityRanges" 64
          let economics := sortedEntries host (latestRecords source profile.economicRecords
            (declarations source (routing.observedOn ++ midnight)))
          let capacity := profile.subscriptionCapacityRanges.filter fun range =>
            (source.providers.map (·.id)).contains range.provider
          require (!((0 < maxEconomics && maxEconomics < economics.length) ||
              (0 < maxCapacity && maxCapacity < capacity.length)))
            (snapshotError "snapshot_limit" "project calibration snapshot exceeds configured limit")
          parseProjectCalibrationSnapshot host.toProfileHost
            (ProjectCalibrationSnapshot.toJson {
              modelsProfile := source.name, routing := routing.profile
              observedOn := routing.observedOn, economics := economics.map (·.toJson)
              subscriptionCapacityRanges := capacity })

end AdCoder.ProjectCalibration
