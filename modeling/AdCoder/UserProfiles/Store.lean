import AdCoder.UserProfiles.Import

/-!
# The store of the user profile

The store holds one file. An operation runs under a lock: it reads the profile, checks
what it is about to write and replaces the file. The text of the file stands here for
the value that it is read as.
-/

namespace AdCoder.UserProfiles

open Foundation

/-- The file: absent, not JSON, or the text of a value. -/
abbrev ProfileFile : Type := Option (Option Json)

/-- Where the file system fails an operation, if it does. A failure after the file was replaced
leaves the new file. -/
inductive StorageFault where
  | none
  | reading
  | publishing
  | syncing
  deriving DecidableEq

def storeError : UserProfileError :=
  ⟨.ioError, "store", "could not access user profile store"⟩

def emptyProfile : UserProfile where
  calibratedRouting := []
  economicRecords := []
  subscriptionCapacityRanges := []
  capabilities := none

/-- `parseUserProfileJson`, of what the file holds. -/
def parseUserProfileJson (host : ProfileHost) : Option Json → Except UserProfileError UserProfile
  | none => .error ⟨.invalidProfile, "json", "invalid user profile JSON"⟩
  | some value => parseUserProfile host value

/-- `encodeUserProfile`: the value that is written as text. -/
def encodeUserProfile (host : ProfileHost) (value : Json) : Except UserProfileError Json :=
  (parseUserProfile host value).map (·.toJson)

def read (host : ProfileHost) (fault : StorageFault) (file : ProfileFile) :
    Except UserProfileError UserProfile :=
  if fault = .reading then .error storeError
  else
    match file with
    | none => .ok emptyProfile
    | some text => parseUserProfileJson host text

def publish (host : ProfileHost) (fault : StorageFault) (file : ProfileFile)
    (profile : UserProfile) : ProfileFile × Except UserProfileError Unit :=
  match encodeUserProfile host profile.toJson with
  | .error error => (file, .error error)
  | .ok encoded =>
      match fault with
      | .publishing => (file, .error storeError)
      | .syncing => (some (some encoded), .error storeError)
      | _ => (some (some encoded), .ok ())

/-- Publish a profile unless its text is that of the current one. -/
def publishChanged (host : ProfileHost) (fault : StorageFault) (file : ProfileFile)
    (current profile : UserProfile) : ProfileFile × Except UserProfileError Unit :=
  match encodeUserProfile host current.toJson, encodeUserProfile host profile.toJson with
  | .ok left, .ok right =>
      if same host left right then (file, .ok ()) else publish host fault file profile
  | .error error, _ => (file, .error error)
  | _, .error error => (file, .error error)

/-- `assertJournalPrefix`. -/
def assertJournalPrefix (host : ProfileHost) (current next : UserProfile) :
    Except UserProfileError Unit :=
  require
    (current.economicRecords.length ≤ next.economicRecords.length &&
      (current.economicRecords.zip next.economicRecords).all fun (record, other) =>
        same host record.toJson other.toJson)
    ⟨.conflict, "economicRecords", "economic history is append-only"⟩

/-! ## Operations -/

/-- The caller gets the profile when it was published. -/
def returned (profile : UserProfile) :
    ProfileFile × Except UserProfileError Unit → ProfileFile × Except UserProfileError UserProfile
  | (file, result) => (file, result.map fun _ => profile)

/-- What `write` is about to publish, after the current profile. -/
def checkWrite (host : ProfileHost) (fault : StorageFault) (file : ProfileFile) (value : Json) :
    Except UserProfileError (UserProfile × UserProfile) := do
  let profile ← parseUserProfile host value
  let current ← read host fault file
  assertJournalPrefix host current profile
  return (current, profile)

def write (host : ProfileHost) (fault : StorageFault) (file : ProfileFile) (value : Json) :
    ProfileFile × Except UserProfileError UserProfile :=
  match checkWrite host fault file value with
  | .error error => (file, .error error)
  | .ok (current, profile) => returned profile (publishChanged host fault file current profile)

/-- What `appendEconomicRecord` is about to publish. -/
def checkAppend (host : ProfileHost) (fault : StorageFault) (file : ProfileFile) (value : Json) :
    Except UserProfileError UserProfile := do
  let record ← parseEconomicRecord host value
  let current ← read host fault file
  require (!(current.economicRecords.any fun entry => entry.id == record.id))
    ⟨.conflict, record.id, "economic record id already exists"⟩
  parseUserProfile host
    { current with economicRecords := current.economicRecords ++ [record] }.toJson

def appendEconomicRecord (host : ProfileHost) (fault : StorageFault) (file : ProfileFile)
    (value : Json) : ProfileFile × Except UserProfileError UserProfile :=
  match checkAppend host fault file value with
  | .error error => (file, .error error)
  | .ok next => returned next (publish host fault file next)

/-- What `import` is about to publish, after the current profile. -/
def checkImport (host : ProfileHost) (fault : StorageFault) (file : ProfileFile) (value : Json)
    (mode : ImportMode) : Except UserProfileError (UserProfile × UserProfile) := do
  let current ← read host fault file
  let preview ← previewUserProfileImport host current.toJson value mode
  let result ← requireImportResult preview
  let validated ← parseUserProfile host result.toJson
  return (current, validated)

def importProfile (host : ProfileHost) (fault : StorageFault) (file : ProfileFile) (value : Json)
    (mode : ImportMode) : ProfileFile × Except UserProfileError UserProfile :=
  match checkImport host fault file value mode with
  | .error error => (file, .error error)
  | .ok (current, validated) => returned validated (publishChanged host fault file current validated)

/-- A value whose numbers the host reads back. -/
abbrev ProfileData (host : ProfileHost) : Type := { value : Json // JsonText.Readable host.format value }

inductive StoreOperation (host : ProfileHost) where
  | write (value : ProfileData host)
  | append (value : ProfileData host)
  | import (value : ProfileData host) (mode : ImportMode)

/-- One operation, and where the file system fails it. -/
structure StoreCall (host : ProfileHost) where
  operation : StoreOperation host
  fault : StorageFault

def perform (host : ProfileHost) (file : ProfileFile) (call : StoreCall host) : ProfileFile :=
  match call.operation with
  | .write value => (write host call.fault file value).1
  | .append value => (appendEconomicRecord host call.fault file value).1
  | .import value mode => (importProfile host call.fault file value mode).1

/-- The file after a sequence of operations. -/
def run (host : ProfileHost) (file : ProfileFile) (calls : List (StoreCall host)) : ProfileFile :=
  calls.foldl (perform host) file

end AdCoder.UserProfiles
