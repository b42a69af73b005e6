import AdCoder.UserProfiles.ProfileLaws

/-!
# Importing a user profile

An import is planned in memory: each entry of the incoming profile is new, unchanged or in
conflict with the entry of the local profile that has its key. Without conflicts the plan
has a result. A merge adds what is new, a replacement takes the routing and capacity of the
incoming profile, and neither rewrites the journal.
-/

namespace AdCoder.UserProfiles

open Foundation

/-- `same`: the two values have one text. -/
def same (host : ProfileHost) (left right : Json) : Bool :=
  Json.stringify host.format.print left == Json.stringify host.format.print right

inductive ImportMode where
  | merge
  | replace
  deriving DecidableEq

structure UserProfileImportPreview where
  mode : ImportMode
  creates : List String
  updates : List String
  unchanged : List String
  conflicts : List String
  result : Option UserProfile
  deriving DecidableEq

/-! ## Collections -/

/-- How the entries of one part of a profile are identified, named in a plan and written. -/
structure Collection (α : Type) where
  key : α → String
  label : α → String
  write : α → Json

inductive Verdict where
  | created
  | unchanged
  | conflicting
  deriving DecidableEq

namespace Collection

variable {α : Type}

/-- `new Map(…).get(key)`: of the entries with a key, the last is held. -/
def current? (c : Collection α) (entries : List α) (key : String) : Option α :=
  entries.reverse.find? fun entry => c.key entry == key

def verdict (c : Collection α) (host : ProfileHost) (entries : List α) (entry : α) : Verdict :=
  match c.current? entries (c.key entry) with
  | none => .created
  | some current => if same host (c.write current) (c.write entry) then .unchanged else .conflicting

/-- What a plan lists of the incoming entries with a verdict. -/
def labels (c : Collection α) (host : ProfileHost) (entries incoming : List α)
    (verdict : Verdict) : List String :=
  (incoming.filter fun entry => c.verdict host entries entry == verdict).map c.label

/-- The incoming entries that are new. -/
def added (c : Collection α) (entries incoming : List α) : List α :=
  incoming.filter fun entry => (c.current? entries (c.key entry)).isNone

end Collection

def routingCollection : Collection CalibratedRouting where
  key := (·.modelsProfile)
  label routing := "calibratedRouting:models-profile:" ++ routing.modelsProfile
  write := (·.toJson)

def capacityCollection : Collection SubscriptionCapacityRange where
  key := (·.key)
  label range := "subscriptionCapacityRange:" ++ range.provider ++ ":" ++ range.unit
  write := (·.toJson)

def recordCollection : Collection EconomicRecord where
  key := (·.id)
  label record := "economicRecord:" ++ record.id
  write := (·.toJson)

/-! ## Plans -/

/-- The parts that a replacement takes as a whole, and whether they stay the same. -/
def replacedParts (host : ProfileHost) (current incoming : UserProfile) :
    ImportMode → List (String × Bool)
  | .merge => []
  | .replace => [
      ("calibratedRouting", same host (.arr (current.calibratedRouting.map (·.toJson)))
        (.arr (incoming.calibratedRouting.map (·.toJson)))),
      ("subscriptionCapacityRanges",
        same host (.arr (current.subscriptionCapacityRanges.map (·.toJson)))
          (.arr (incoming.subscriptionCapacityRanges.map (·.toJson))))]

/-- What a plan lists of the entries with a verdict: only a merge goes by entries of routing and
capacity. -/
def plannedLabels (host : ProfileHost) (current incoming : UserProfile) (mode : ImportMode)
    (verdict : Verdict) : List String :=
  (match mode with
    | .merge =>
        routingCollection.labels host current.calibratedRouting incoming.calibratedRouting verdict ++
          capacityCollection.labels host current.subscriptionCapacityRanges
            incoming.subscriptionCapacityRanges verdict
    | .replace => []) ++
    recordCollection.labels host current.economicRecords incoming.economicRecords verdict

/-- The profile that an import without conflicts makes. -/
def importedProfile (current incoming : UserProfile) (mode : ImportMode) : UserProfile where
  calibratedRouting :=
    match mode with
    | .replace => incoming.calibratedRouting
    | .merge => current.calibratedRouting ++
        routingCollection.added current.calibratedRouting incoming.calibratedRouting
  economicRecords := current.economicRecords ++
    recordCollection.added current.economicRecords incoming.economicRecords
  subscriptionCapacityRanges :=
    match mode with
    | .replace => incoming.subscriptionCapacityRanges
    | .merge => current.subscriptionCapacityRanges ++
        capacityCollection.added current.subscriptionCapacityRanges
          incoming.subscriptionCapacityRanges
  -- The object that the source builds has no such property.
  capabilities := none

def planImport (host : ProfileHost) (current incoming : UserProfile) (mode : ImportMode) :
    UserProfileImportPreview :=
  let parts := replacedParts host current incoming mode
  let conflicts := plannedLabels host current incoming mode .conflicting
  { mode
    creates := plannedLabels host current incoming mode .created
    updates := (parts.filter (!·.2)).map (·.1)
    unchanged := (parts.filter (·.2)).map (·.1) ++ plannedLabels host current incoming mode .unchanged
    conflicts
    result := if conflicts.isEmpty then some (importedProfile current incoming mode) else none }

def previewUserProfileImport (host : ProfileHost) (localValue incomingValue : Json)
    (mode : ImportMode) : Except UserProfileError UserProfileImportPreview := do
  let current ← parseUserProfile host localValue
  let incoming ← parseUserProfile host incomingValue
  return planImport host current incoming mode

def requireImportResult (preview : UserProfileImportPreview) :
    Except UserProfileError UserProfile :=
  match preview.conflicts, preview.result with
  | [], some result => .ok result
  | conflicts, _ => .error ⟨.conflict, ",".intercalate conflicts, "user profile import has conflicts"⟩

end AdCoder.UserProfiles
