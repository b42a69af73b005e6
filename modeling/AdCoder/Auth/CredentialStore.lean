import AdCoder.Foundation.JsonRoundTrip
import AdCoder.Stamp.ReviewStamp

/-!
# The credential store

Credentials are kept in one private file, under the ids of their providers. Every
operation reads the whole file again, and a write puts a new file in place of it.
-/

namespace AdCoder.Auth

open Foundation Foundation.Regex
open Stamp (inheritedNames)

structure AuthError where
  code : String
  detail : String
  message : String
  deriving DecidableEq

/-- The file and the lock as they are named in errors, and how the host writes numbers. -/
structure StoreHost where
  path : String
  lockPath : String
  format : NumberFormat

/-! ## Validation -/

def providerIdPattern : Regex :=
  sequence [atStart, .one isAlnum,
    .rep true 0 (some 127) (.one fun x => isAlnum x || x == '.' || x == '_' || x == '-'), atEnd]

def storeError (filePath message : String) : AuthError :=
  ⟨"credential_store", filePath, message ++ ": " ++ filePath⟩

def validateProviderId (providerId : String) : Except AuthError Unit :=
  require (providerIdPattern.test providerId) ⟨"credential_store", providerId,
    "invalid credential provider id \"" ++ providerId ++ "\""⟩

/-- An object whose values are all strings. -/
def isEnvironment : Json → Bool
  | .obj fields => fields.all fun field =>
      match field.2 with
      | .str _ => true
      | _ => false
  | _ => false

/-- A credential under the rules of its type; other fields are kept for `oauth` alone. -/
def validateCredential : Json → Except String Json
  | .obj record =>
      match Json.lookup "type" record with
      | some (.str "oauth") =>
          match Json.lookup "access" record, Json.lookup "refresh" record,
              Json.lookup "expires" record with
          | some (.str _), some (.str _), some (.num (.finite _)) => .ok (.obj record)
          | _, _, _ => .error "oauth credential has an invalid shape"
      | some (.str "api_key") => do
          let key := Json.lookup "key" record
          let env := Json.lookup "env" record
          require (match key with | none => true | some (.str _) => true | _ => false)
            "api-key credential has an invalid key"
          require (env.all isEnvironment) "api-key credential has invalid environment data"
          return .obj (("type", .str "api_key") ::
            ((key.map fun key => ("key", key)).toList ++
              (env.map fun env => ("env", env)).toList))
      | _ => .error "credential has an unsupported type"
  | _ => .error "credential must be an object"

/-! ## The file -/

/-- The own properties of the file's object; their order is left open. -/
abbrev CredentialFile := List (String × Json)

/-- The value of a property: what every plain object inherits is never `undefined`. -/
inductive PropertyValue where
  | undefined
  | credential (credential : Json)
  | inherited (name : String)

/-- `all[providerId]`. -/
def property (all : CredentialFile) (providerId : String) : PropertyValue :=
  match Json.lookup providerId all with
  | some credential => .credential credential
  | none => if providerId ∈ inheritedNames then .inherited providerId else .undefined

/-- The text of the file, if there is one. -/
abbrev StoredFile := Option (List Char)

/-- One entry of the file beside those that were read before it. -/
def readEntry (host : StoreHost) (all : CredentialFile) (entry : String × Json) :
    Except AuthError CredentialFile := do
  validateProviderId entry.1
  match validateCredential entry.2 with
  | .ok credential => return JsonText.insert entry.1 credential all
  | .error _ => throw (storeError host.path "could not read credential store")

def readAll (host : StoreHost) : StoredFile → Except AuthError CredentialFile
  | none => .ok []
  | some text =>
      match JsonText.parse host.format text with
      | some (.obj entries) => entries.foldlM (readEntry host) []
      | _ => .error (storeError host.path "could not read credential store")

def publish (host : StoreHost) (all : CredentialFile) : StoredFile :=
  some ((Json.stringify host.format.print (.obj all)).toList ++ ['\n'])

/-! ## Operations -/

def read (host : StoreHost) (file : StoredFile) (providerId : String) :
    Except AuthError PropertyValue := do
  validateProviderId providerId
  return property (← readAll host file) providerId

/-- The ids with the types of their credentials. -/
def list (host : StoreHost) (file : StoredFile) :
    Except AuthError (List (String × Option Json)) := do
  let entries ← readAll host file
  return entries.map fun (providerId, credential) => (providerId,
    match credential with
    | .obj fields => Json.lookup "type" fields
    | _ => none)

/-- The ids alone; what stands under them is not looked at. -/
def storedProviderIds (host : StoreHost) : StoredFile → Except AuthError (List String)
  | none => .ok []
  | some text =>
      match JsonText.parse host.format text with
      | none => .error (storeError host.path "credential store contains invalid JSON")
      | some (.obj entries) => do
          (entries.map (·.1)).forM validateProviderId
          return entries.map (·.1)
      | some _ => .error (storeError host.path "credential store root is not an object")

/-- How a callback ends: with a value, with `undefined`, or with an error, which may carry the
code by which a held lock is told. -/
inductive CallbackOutcome where
  | returned (next : Option Json)
  | failed (lockHeld : Bool)

/-- A callback is called again after it failed with the code of a held lock. -/
abbrev Callback := PropertyValue → CallbackOutcome

def lockError (host : StoreHost) : AuthError :=
  storeError host.lockPath "could not securely acquire credential lock"

/-- What a successful `modify` returns the property as: it found it so, or stored it. -/
inductive Modified where
  | kept (current : PropertyValue)
  | stored (credential : Json)

/-- The rounds of the lock's loop, with the callback that each calls. The caller aborts after the
last of them. The file is given with the result. -/
def modifyLocked (host : StoreHost) (file : StoredFile) (providerId : String) :
    List Callback → StoredFile × Except AuthError Modified
  | [] => (file, .error ⟨"aborted", "", "Aborted"⟩)
  | callback :: rounds =>
      match readAll host file with
      | .error error => (file, .error error)
      | .ok all =>
          match callback (property all providerId) with
          | .failed true => modifyLocked host file providerId rounds
          | .failed false => (file, .error (lockError host))
          | .returned none => (file, .ok (.kept (property all providerId)))
          | .returned (some next) =>
              match validateCredential next with
              | .error _ => (file, .error (lockError host))
              | .ok credential =>
                  (publish host (JsonText.insert providerId credential all),
                    .ok (.stored credential))

def modify (host : StoreHost) (file : StoredFile) (providerId : String)
    (rounds : List Callback) : StoredFile × Except AuthError Modified :=
  match validateProviderId providerId with
  | .error error => (file, .error error)
  | .ok () => modifyLocked host file providerId rounds

/-- `providerId in all`. -/
def hasProperty (all : CredentialFile) (providerId : String) : Bool :=
  (Json.lookup providerId all).isSome || inheritedNames.contains providerId

def delete (host : StoreHost) (file : StoredFile) (providerId : String) :
    StoredFile × Except AuthError Unit :=
  match validateProviderId providerId with
  | .error error => (file, .error error)
  | .ok () =>
      match readAll host file with
      | .error error => (file, .error error)
      | .ok all =>
          if hasProperty all providerId then
            (publish host (all.filter fun entry => entry.1 ≠ providerId), .ok ())
          else (file, .ok ())

end AdCoder.Auth
