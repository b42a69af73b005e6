import AdCoder.Foundation.IsoDates
import AdCoder.Foundation.JsonRoundTrip
import AdCoder.Profiles.Validate

/-!
# The user profile

Calibrated routing, an append-only journal of economic records and ranges of subscription
capacity, as they are validated when a profile is read or imported.
-/

namespace AdCoder.UserProfiles

open Foundation
open Profiles (Profile ofText? parseProfile)

inductive EconomicRecordKind where
  | price
  | contextLimit
  | subscriptionLimit
  | creditBalance
  deriving DecidableEq

def EconomicRecordKind.text : EconomicRecordKind → String
  | price => "price"
  | contextLimit => "context_limit"
  | subscriptionLimit => "subscription_limit"
  | creditBalance => "credit_balance"

/-- `ECONOMIC_KINDS`. -/
def economicKinds : List EconomicRecordKind :=
  [.price, .contextLimit, .subscriptionLimit, .creditBalance]

inductive EconomicConfidence where
  | official
  | providerReported
  | measured
  | estimated
  deriving DecidableEq

def EconomicConfidence.text : EconomicConfidence → String
  | official => "official"
  | providerReported => "provider_reported"
  | measured => "measured"
  | estimated => "estimated"

/-- `CONFIDENCES`. -/
def confidences : List EconomicConfidence := [.official, .providerReported, .measured, .estimated]

inductive UserProfileErrorCode where
  | invalidProfile
  | unsupportedVersion
  | notFound
  | conflict
  | ioError
  deriving DecidableEq

structure UserProfileError where
  code : UserProfileErrorCode
  detail : String
  message : String
  deriving DecidableEq

/-- The parts of a URL that a source must not have. -/
structure UrlParts where
  protocol : String
  username : String
  password : String
  search : String
  hash : String

/-- `new URL`, and how numbers are printed: safe whole numbers in decimal. -/
structure ProfileHost where
  parseUrl : String → Option UrlParts
  format : NumberFormat
  decimal : format.Decimal

structure CalibratedRouting where
  modelsProfile : String
  profile : Profile
  observedOn : String
  source : String
  confidence : EconomicConfidence
  deriving DecidableEq

structure SubscriptionCapacityRange where
  provider : String
  unit : String
  lowerBound : Rat
  upperBound : Rat
  observedOn : String
  source : String
  confidence : EconomicConfidence
  deriving DecidableEq

structure EconomicRecord where
  id : String
  observedAt : String
  provider : String
  model : String
  kind : EconomicRecordKind
  value : Rat
  unit : String
  source : String
  confidence : EconomicConfidence
  previousId : Option String
  deriving DecidableEq

structure UserProfileCapabilities where
  skills : Option Bool
  deriving DecidableEq

structure UserProfile where
  calibratedRouting : List CalibratedRouting
  economicRecords : List EconomicRecord
  subscriptionCapacityRanges : List SubscriptionCapacityRange
  capabilities : Option UserProfileCapabilities
  deriving DecidableEq

/-! ## Fields -/

/-- `invalid`. -/
def invalid (detail : String) : UserProfileError :=
  ⟨.invalidProfile, detail, "invalid user profile: " ++ detail⟩

def object (detail : String) : Option Json → Except UserProfileError (List (String × Json))
  | some (.obj fields) => .ok fields
  | _ => .error (invalid detail)

def array (detail : String) : Option Json → Except UserProfileError (List Json)
  | some (.arr items) => .ok items
  | _ => .error (invalid detail)

def exactKeys (fields : List (String × Json)) (keys : List String) (detail : String) :
    Except UserProfileError Unit :=
  require (fields.all fun field => keys.contains field.1)
    (invalid (detail ++ " has unknown fields"))

/-- The text is not blank. -/
def filled (text : String) : Bool := trim text != ""

def string (detail : String) : Option Json → Except UserProfileError String
  | some (.str s) => if filled s then .ok s else .error (invalid detail)
  | _ => .error (invalid detail)

/-- The sources that are not URLs. -/
def sourceLabels : List String :=
  ["benchmark", "manual-entry", "project-calibration", "provider-measurement"]

def checkSource (host : ProfileHost) (detail source : String) : Except UserProfileError Unit :=
  match host.parseUrl source with
  | none => require (sourceLabels.contains source)
      (invalid (detail ++ " must be an HTTPS URL or an approved anonymous source label"))
  | some url => do
      require (url.protocol == "https:") (invalid (detail ++ " URL must use HTTPS"))
      require (url.username == "" && url.password == "" && url.search == "" && url.hash == "")
        (invalid (detail ++ " URL must not contain credentials, query, or fragment data"))

def safeSource (host : ProfileHost) (detail : String) (value : Option Json) :
    Except UserProfileError String := do
  let source ← string detail value
  checkSource host detail source
  return source

def finite (detail : String) : Option Json → Except UserProfileError Rat
  | some (.num (.finite q)) => .ok q
  | _ => .error (invalid detail)

def date (detail : String) (value : Option Json) : Except UserProfileError String := do
  let text ← string detail value
  require (Iso.isDate text) (invalid detail)
  return text

/-- A field that may be undefined. -/
def optional {α : Type} (read : Json → Except UserProfileError α) :
    Option Json → Except UserProfileError (Option α)
  | none => .ok none
  | some value => (read value).map some

/-- A text that must be one of those listed. -/
def listed {α : Type} (values : List α) (text : α → String) (detail : String)
    (value : Option Json) : Except UserProfileError α :=
  match ofText? values text value with
  | some x => .ok x
  | none => .error (invalid detail)

/-! ## Records -/

def noInventory : String :=
  "JSON inventory is not a routing source; name a models.yaml profile instead (for example, \x60ad-coder profile snapshot --models-profile <name>\x60)"

def checkProfileEntry (item : Json) : Except UserProfileError Unit := do
  let entry ← object "calibrated routing profile entry must be an object" (some item)
  exactKeys entry ["role", "complexity", "model", "maxOutput", "cacheRetention", "thinkingLevel"]
    "calibrated routing profile entry"

def parseCalibratedRouting (host : ProfileHost) (value : Json) :
    Except UserProfileError CalibratedRouting := do
  let routing ← object "calibrated routing must be an object" (some value)
  exactKeys routing
    ["inventory", "modelsProfile", "profile", "observedOn", "source", "confidence"]
    "calibrated routing"
  require (Json.lookup "inventory" routing).isNone
    (invalid ("calibratedRouting.inventory is not a routing source: " ++ noInventory))
  require (Json.lookup "modelsProfile" routing).isSome
    (invalid "calibrated routing must name a models profile")
  let confidence ← listed confidences EconomicConfidence.text
    "calibrated routing confidence is unsupported" (Json.lookup "confidence" routing)
  let profileValue ← object "calibrated routing profile must be an object"
    (Json.lookup "profile" routing)
  exactKeys profileValue ["entries"] "calibrated routing profile"
  let entries ← array "calibrated routing profile entries must be an array"
    (Json.lookup "entries" profileValue)
  entries.forM checkProfileEntry
  let modelsProfile ← string "calibrated routing models profile must be a non-empty string"
    (Json.lookup "modelsProfile" routing)
  let profile ← (parseProfile (.obj profileValue)).mapError fun _ =>
    invalid "calibrated routing profile is invalid"
  let observedOn ← date "calibrated routing observedOn must be a canonical ISO date"
    (Json.lookup "observedOn" routing)
  let source ← safeSource host "calibrated routing source must be a non-empty string"
    (Json.lookup "source" routing)
  return { modelsProfile, profile, observedOn, source, confidence }

def parseSubscriptionCapacityRange (host : ProfileHost) (value : Json) :
    Except UserProfileError SubscriptionCapacityRange := do
  let range ← object "subscription capacity range must be an object" (some value)
  exactKeys range
    ["provider", "unit", "lowerBound", "upperBound", "observedOn", "source", "confidence"]
    "subscription capacity range"
  let lowerBound ← finite "subscription capacity lowerBound must be finite"
    (Json.lookup "lowerBound" range)
  let upperBound ← finite "subscription capacity upperBound must be finite"
    (Json.lookup "upperBound" range)
  require (!(lowerBound < 0 || upperBound < 0 || upperBound < lowerBound))
    (invalid "subscription capacity bounds must be non-negative and ordered")
  let confidence ← listed confidences EconomicConfidence.text
    "subscription capacity confidence is unsupported" (Json.lookup "confidence" range)
  let provider ← string "subscription capacity provider must be a non-empty string"
    (Json.lookup "provider" range)
  let unit ← string "subscription capacity unit must be a non-empty string"
    (Json.lookup "unit" range)
  let observedOn ← date "subscription capacity observedOn must be a canonical ISO date"
    (Json.lookup "observedOn" range)
  let source ← safeSource host "subscription capacity source must be a non-empty string"
    (Json.lookup "source" range)
  return { provider, unit, lowerBound, upperBound, observedOn, source, confidence }

def parseEconomicRecord (host : ProfileHost) (value : Json) :
    Except UserProfileError EconomicRecord := do
  let record ← object "economic record must be an object" (some value)
  exactKeys record
    ["id", "observedAt", "provider", "model", "kind", "value", "unit", "source", "confidence",
      "previousId"]
    "economic record"
  let observedAt ← string "economic record observedAt must be a string"
    (Json.lookup "observedAt" record)
  require (Iso.isTimestamp observedAt)
    (invalid "economic record observedAt must be a canonical ISO timestamp")
  let kind ← listed economicKinds EconomicRecordKind.text "economic record kind is unsupported"
    (Json.lookup "kind" record)
  let confidence ← listed confidences EconomicConfidence.text
    "economic record confidence is unsupported" (Json.lookup "confidence" record)
  let previousId ← optional (fun previous => string "economic record previousId" (some previous))
    (Json.lookup "previousId" record)
  let id ← string "economic record id must be a non-empty string" (Json.lookup "id" record)
  let provider ← string "economic record provider must be a non-empty string"
    (Json.lookup "provider" record)
  let model ← string "economic record model must be a non-empty string"
    (Json.lookup "model" record)
  let value ← finite "economic record value must be finite" (Json.lookup "value" record)
  let unit ← string "economic record unit must be a non-empty string" (Json.lookup "unit" record)
  let source ← safeSource host "economic record source must be a non-empty string"
    (Json.lookup "source" record)
  return { id, observedAt, provider, model, kind, value, unit, source, confidence, previousId }

def parseCapabilities (value : Json) : Except UserProfileError UserProfileCapabilities := do
  let capabilities ← object "profile capabilities must be an object" (some value)
  exactKeys capabilities ["skills"] "profile capabilities"
  match Json.lookup "skills" capabilities with
  | none => return ⟨none⟩
  | some (.bool skills) => return ⟨some skills⟩
  | some _ => throw (invalid "profile.capabilities.skills must be a boolean")

/-! ## Profiles -/

/-- One value after others that it must differ from. -/
def addNew (error : UserProfileError) (seen : List String) (key : String) :
    Except UserProfileError (List String) := do
  require (!seen.contains key) error
  return seen ++ [key]

/-- One record after the records before it. -/
def checkRecord (before : List EconomicRecord) (record : EconomicRecord) :
    Except UserProfileError (List EconomicRecord) := do
  require (!(before.map (·.id)).contains record.id)
    (invalid "economic record ids must be unique")
  require (!(record.value < 0)) (invalid "economic record value must be non-negative")
  match record.previousId with
  | none => return before ++ [record]
  | some previousId =>
      match before.find? fun other => other.id == previousId with
      | none => throw (invalid "economic record previousId must reference an earlier record")
      | some previous =>
          require (previous.provider == record.provider && previous.model == record.model &&
              previous.kind == record.kind)
            (invalid "economic record previousId must reference the same provider, model, and kind")
          return before ++ [record]

/-- The key under which a capacity range is unique. -/
def SubscriptionCapacityRange.key (range : SubscriptionCapacityRange) : String :=
  range.provider ++ "\u0000" ++ range.unit

/-- The value of `version`. -/
def profileVersion : JsNumber := 1

def isVersion : Option Json → Bool
  | some (.num n) => n == profileVersion
  | _ => false

/-- The inventories of a profile are absent or empty. -/
def noInventories : Option Json → Bool
  | none => true
  | some (.arr items) => items.isEmpty
  | some _ => false

def parseUserProfile (host : ProfileHost) (value : Json) :
    Except UserProfileError UserProfile := do
  let profile ← object "profile must be an object" (some value)
  exactKeys profile
    ["version", "inventories", "calibratedRouting", "economicRecords",
      "subscriptionCapacityRanges", "capabilities"]
    "profile"
  require (Json.lookup "version" profile).isSome (invalid "profile.version is required")
  require (isVersion (Json.lookup "version" profile))
    ⟨.unsupportedVersion, "version", "unsupported user profile version"⟩
  require (noInventories (Json.lookup "inventories" profile))
    (invalid ("inventories is not a routing source: " ++ noInventory))
  let routings ← array "profile.calibratedRouting must be an array"
    (Json.lookup "calibratedRouting" profile)
  let records ← array "profile.economicRecords must be an array"
    (Json.lookup "economicRecords" profile)
  let ranges ← array "profile.subscriptionCapacityRanges must be an array"
    (Json.lookup "subscriptionCapacityRanges" profile)
  let capabilities ← optional parseCapabilities (Json.lookup "capabilities" profile)
  let calibratedRouting ← routings.mapM (parseCalibratedRouting host)
  let _ ← (calibratedRouting.map (·.modelsProfile)).foldlM
    (addNew (invalid "calibrated routing models profiles must be unique")) []
  let economicRecords ← records.mapM (parseEconomicRecord host)
  let _ ← economicRecords.foldlM checkRecord []
  let subscriptionCapacityRanges ← ranges.mapM (parseSubscriptionCapacityRange host)
  let _ ← (subscriptionCapacityRanges.map (·.key)).foldlM
    (addNew (invalid "subscription capacity provider and unit pairs must be unique")) []
  return {
    calibratedRouting, economicRecords, subscriptionCapacityRanges
    capabilities := capabilities.filter (·.skills.isSome) }

/-! ## Writing -/

def CalibratedRouting.toJson (routing : CalibratedRouting) : Json := Json.object [
  ("modelsProfile", some (.str routing.modelsProfile)), ("profile", some routing.profile.toJson),
  ("observedOn", some (.str routing.observedOn)), ("source", some (.str routing.source)),
  ("confidence", some (.str routing.confidence.text))]

def SubscriptionCapacityRange.toJson (range : SubscriptionCapacityRange) : Json := Json.object [
  ("provider", some (.str range.provider)), ("unit", some (.str range.unit)),
  ("lowerBound", some (.num (.finite range.lowerBound))),
  ("upperBound", some (.num (.finite range.upperBound))),
  ("observedOn", some (.str range.observedOn)), ("source", some (.str range.source)),
  ("confidence", some (.str range.confidence.text))]

def EconomicRecord.toJson (record : EconomicRecord) : Json := Json.object [
  ("id", some (.str record.id)), ("observedAt", some (.str record.observedAt)),
  ("provider", some (.str record.provider)), ("model", some (.str record.model)),
  ("kind", some (.str record.kind.text)), ("value", some (.num (.finite record.value))),
  ("unit", some (.str record.unit)), ("source", some (.str record.source)),
  ("confidence", some (.str record.confidence.text)),
  ("previousId", record.previousId.map .str)]

def UserProfileCapabilities.toJson (capabilities : UserProfileCapabilities) : Json :=
  Json.object [("skills", capabilities.skills.map .bool)]

def UserProfile.toJson (profile : UserProfile) : Json := Json.object [
  ("version", some (.num profileVersion)),
  ("calibratedRouting", some (.arr (profile.calibratedRouting.map (·.toJson)))),
  ("economicRecords", some (.arr (profile.economicRecords.map (·.toJson)))),
  ("subscriptionCapacityRanges", some (.arr (profile.subscriptionCapacityRanges.map (·.toJson)))),
  ("capabilities", profile.capabilities.map (·.toJson))]

end AdCoder.UserProfiles
