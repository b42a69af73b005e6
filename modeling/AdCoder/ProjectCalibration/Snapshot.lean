import AdCoder.ProjectOperations.LdoArtifact
import AdCoder.UserProfiles.ProfileLaws

/-!
# Calibration snapshots

A snapshot takes the routing of a profile into a repository, with the economic facts and the
capacity of the models that the routing reaches. A stored snapshot is validated through the
reader of user profiles, and its economic entries are returned as they were stored.
-/

namespace AdCoder.ProjectCalibration

open Foundation UserProfiles
open Profiles (Profile ProfileError parseProfile)
open ProjectOperations (LdoHost display displayed)

inductive CalibrationFailure where
  | profile (error : UserProfileError)
  | routing (error : ProfileError)
  /-- The `TypeError` of a conversion, or of a property of `null`. -/
  | type
  deriving DecidableEq

structure ProjectEconomicSnapshot where
  provider : String
  model : String
  kind : EconomicRecordKind
  value : Rat
  unit : String
  observedOn : String
  source : String
  confidence : EconomicConfidence
  deriving DecidableEq

def ProjectEconomicSnapshot.toJson (entry : ProjectEconomicSnapshot) : Json := Json.object [
  ("provider", some (.str entry.provider)), ("model", some (.str entry.model)),
  ("kind", some (.str entry.kind.text)), ("value", some (.num (.finite entry.value))),
  ("unit", some (.str entry.unit)), ("observedOn", some (.str entry.observedOn)),
  ("source", some (.str entry.source)), ("confidence", some (.str entry.confidence.text))]

/-- The economic entries are those of the value that was parsed. -/
structure ProjectCalibrationSnapshot where
  modelsProfile : String
  routing : Profile
  observedOn : String
  economics : List Json
  subscriptionCapacityRanges : List SubscriptionCapacityRange

def ProjectCalibrationSnapshot.toJson (snapshot : ProjectCalibrationSnapshot) : Json := Json.object [
  ("version", some (.num profileVersion)),
  ("modelsProfile", some (.str snapshot.modelsProfile)),
  ("routing", some snapshot.routing.toJson), ("observedOn", some (.str snapshot.observedOn)),
  ("economics", some (.arr snapshot.economics)),
  ("subscriptionCapacityRanges", some (.arr (snapshot.subscriptionCapacityRanges.map (·.toJson))))]

/-! ## Parsing -/

def snapshotError (detail message : String) : CalibrationFailure :=
  .profile ⟨.invalidProfile, detail, message⟩

/-- `String(value)`. -/
def text (host : ProfileHost) (value : Option Json) : Except CalibrationFailure String :=
  (displayed ⟨host.format.print, fun _ => false⟩ value).mapError fun _ => .type

/-- What a property of the value is looked up in. -/
def members : Json → Except CalibrationFailure (List (String × Json))
  | .null => .error .type
  | .obj fields => .ok fields
  | _ => .ok []

def midnight : String := "T00:00:00.000Z"

/-- The record as which an entry is validated. -/
def envelopeRecord (host : ProfileHost) (index : Nat) (entry : Json) :
    Except CalibrationFailure Json := do
  let fields ← members entry
  let observedOn ← text host (Json.lookup "observedOn" fields)
  return Json.object [
    ("id", some (.str ("snapshot-" ++ toString index))),
    ("observedAt", some (.str (observedOn ++ midnight))),
    ("provider", Json.lookup "provider" fields), ("model", Json.lookup "model" fields),
    ("kind", Json.lookup "kind" fields), ("value", Json.lookup "value" fields),
    ("unit", Json.lookup "unit" fields), ("source", Json.lookup "source" fields),
    ("confidence", Json.lookup "confidence" fields)]

def envelopeRecords (host : ProfileHost) : Nat → List Json → Except CalibrationFailure (List Json)
  | _, [] => .ok []
  | index, entry :: rest => do
      let record ← envelopeRecord host index entry
      let records ← envelopeRecords host (index + 1) rest
      return record :: records

/-- The profile as which a snapshot is validated. -/
def envelope (fields : List (String × Json)) (records : List Json) : Json := Json.object [
  ("version", some (.num profileVersion)),
  ("calibratedRouting", some (.arr [Json.object [
    ("modelsProfile", Json.lookup "modelsProfile" fields),
    ("profile", Json.lookup "routing" fields), ("observedOn", Json.lookup "observedOn" fields),
    ("source", some (.str "project-calibration")), ("confidence", some (.str "measured"))]])),
  ("economicRecords", some (.arr records)),
  ("subscriptionCapacityRanges", Json.lookup "subscriptionCapacityRanges" fields)]

/-- `Object.keys(x).sort().join(",")`. -/
def shape (fields : List (String × Json)) : String :=
  ",".intercalate (sortText (fields.map (·.1)))

/-- The refusal of a snapshot that names an inventory. -/
def inventoryError (host : ProfileHost) (inventory : Json) : CalibrationFailure :=
  let name := match inventory with
    | .obj fields => Json.lookup "name" fields
    | _ => none
  match text host name with
  | .error failure => failure
  | .ok name => snapshotError "inventory"
      ("this snapshot names the JSON inventory \"" ++ name ++ "\" as its routing source, and a JSON inventory is no longer a source a run can select; name a models.yaml profile instead -- re-take the snapshot with \x60ad-coder profile snapshot --models-profile <name>\x60 (issue #513)")

/-- `{ ...entry }`, of an entry that was validated. -/
def spread : Json → Json
  | .obj fields => .obj fields
  | _ => .obj []

def items (value : Option Json) : Except CalibrationFailure (List Json) :=
  match value with
  | some (.arr items) => .ok items
  | _ => .error (snapshotError "snapshot" "snapshot economics and capacity ranges must be arrays")

def parseProjectCalibrationSnapshot (host : ProfileHost) (value : Json) :
    Except CalibrationFailure ProjectCalibrationSnapshot := do
  let fields ← (object "snapshot" (some value)).mapError fun _ =>
    snapshotError "snapshot" "project calibration snapshot must be an object"
  match Json.lookup "inventory" fields with
  | some inventory => throw (inventoryError host inventory)
  | none =>
      require (shape fields ==
          "economics,modelsProfile,observedOn,routing,subscriptionCapacityRanges,version" &&
          isVersion (Json.lookup "version" fields))
        (snapshotError "snapshot" "project calibration snapshot fields are invalid")
      let economics ← items (Json.lookup "economics" fields)
      let _ ← items (Json.lookup "subscriptionCapacityRanges" fields)
      let records ← envelopeRecords host 0 economics
      let envelope ← (parseUserProfile host (envelope fields records)).mapError .profile
      let observedOn ← text host (Json.lookup "observedOn" fields)
      require (Iso.isDate observedOn) (snapshotError "observedOn" "snapshot date is invalid")
      let routing ← (parseProfile ((Json.lookup "routing" fields).getD .null)).mapError .routing
      match envelope.calibratedRouting with
      | [] => throw (snapshotError "modelsProfile" "snapshot models profile is missing")
      | calibrated :: _ => return {
          modelsProfile := calibrated.modelsProfile, routing, observedOn
          economics := economics.map spread
          subscriptionCapacityRanges := envelope.subscriptionCapacityRanges }

end AdCoder.ProjectCalibration
