import AdCoder.SessionManager.Types
import Mathlib.Data.List.AList

/-!
# Durable bindings

One JSON file maps driver keys to project keys and project keys to project
records. Loading checks every field, and checks each recorded directory against
the allowed roots; a record that fails is reported and left out.
-/

namespace AdCoder.SessionManager

open Foundation Foundation.Regex

/-- A JavaScript object used as a map. -/
abbrev KeyMap (α : Type) := AList fun _ : String => α

structure BindingRecord where
  projectKey : String
  driverKind : DriverKind
  deriving DecidableEq

inductive SessionNameSource where
  | generated
  | manual
  deriving DecidableEq

structure ProjectRecord where
  targetDir : String
  sessionId : String
  profile : Option String
  name : String
  nameSource : SessionNameSource
  createdAt : JsNumber
  deriving DecidableEq

structure PersistedBindings where
  drivers : KeyMap BindingRecord
  projects : KeyMap ProjectRecord
  deriving DecidableEq

def emptyBindings : PersistedBindings := ⟨∅, ∅⟩

/-- `SESSION_FALLBACK_NAME`. -/
def sessionFallbackName : String := "New session"

/-! ## The file system -/

/-- What `lstat` finds under a path, with the native real path of what is there. -/
inductive FileEntry where
  | absent
  | symlink (real : Option String)
  | directory (real : String)
  | other
  deriving DecidableEq

abbrev FileSystem := String → FileEntry

/-- `realpathSync.native`. -/
def realpath (fs : FileSystem) (path : String) : Option String :=
  match fs path with
  | .absent => none
  | .symlink real => real
  | .directory real => some real
  | .other => some path

/-- `path.join` of a real root and a slug. -/
def joinPath (root projectKey : String) : String :=
  if root = "/" then "/" ++ projectKey else root ++ "/" ++ projectKey

/-! ## Writing -/

/-- `JSON.stringify` writes `null` for a number that is not finite. -/
def jsonNumber (n : JsNumber) : Json := if n.isFinite then .num n else .null

def DriverKind.text : DriverKind → String
  | .console => "console"
  | .telegram => "telegram"

def SessionNameSource.text : SessionNameSource → String
  | .generated => "generated"
  | .manual => "manual"

def BindingRecord.toJson (binding : BindingRecord) : Json :=
  .obj [("projectKey", .str binding.projectKey), ("driverKind", .str binding.driverKind.text)]

def ProjectRecord.toJson (record : ProjectRecord) : Json :=
  .obj ([("targetDir", .str record.targetDir), ("sessionId", .str record.sessionId)] ++
    (record.profile.map fun profile => ("profile", Json.str profile)).toList ++
    [("name", .str record.name), ("nameSource", .str record.nameSource.text),
     ("createdAt", jsonNumber record.createdAt)])

def PersistedBindings.toJson (bindings : PersistedBindings) : Json :=
  .obj [("version", .num 1),
    ("drivers", .obj (bindings.drivers.entries.map fun e => (e.1, e.2.toJson))),
    ("projects", .obj (bindings.projects.entries.map fun e => (e.1, e.2.toJson)))]

/-! ## Loading -/

/-- The contents of a private state file. -/
inductive StateFile where
  | absent
  | unparsed
  | parsed (value : Json)

def invalidBindings (reason : String) : SessionManagerError :=
  ⟨.invalidBinding, false, "the stored session-manager bindings are " ++ reason,
    "remove the corrupted bindings file from the private state directory; " ++
      "bindings rebuild as sessions are re-created"⟩

def asRecord : Json → Except SessionManagerError (List (String × Json))
  | .obj fields => .ok fields
  | _ => .error (invalidBindings "not a map")

/-- The members of an object that may be left out. -/
def recordAt (name : String) (doc : List (String × Json)) :
    Except SessionManagerError (List (String × Json)) :=
  match Json.lookup name doc with
  | none => .ok []
  | some value => asRecord value

def knownDriverKeys : List String := ["projectKey", "driverKind"]

def knownProjectKeys : List String :=
  ["targetDir", "sessionId", "profile", "name", "nameSource", "createdAt"]

def knows (keys : List String) (fields : List (String × Json)) : Bool :=
  fields.all fun field => keys.contains field.1

def loadDriver (value : Json) : Except SessionManagerError BindingRecord := do
  let driver ← asRecord value
  require (knows knownDriverKeys driver) (invalidBindings "unknown field")
  match Json.asString? (Json.lookup "projectKey" driver) with
  | none => throw (invalidBindings "driver record is missing its projectKey")
  | some boundKey =>
      match validateProjectKey boundKey with
      | .error _ => throw (invalidBindings "a driver record names an unsafe project key")
      | .ok _ =>
          match Json.asString? (Json.lookup "driverKind" driver) with
          | some "telegram" => pure ⟨boundKey, .telegram⟩
          | some "console" => pure ⟨boundKey, .console⟩
          | _ => throw (invalidBindings "a driver record is missing its front kind attribution")

/-- `SESSION_ID_PATTERN`. -/
def sessionIdPattern : Regex :=
  let lead := fun x => ('a' ≤ x && x ≤ 'z') || isDigit x
  sequence [atStart, .one lead,
    .rep true 8 (some 63) (.one fun x => lead x || x == '_' || x == '-'), atEnd]

/-- A string field, or the reason to reject the record. -/
def textField (fields : List (String × Json)) (field : String) (accepts : String → Bool)
    (reason : String) : Except String String :=
  match Json.lookup field fields with
  | some (.str text) => if accepts text then .ok text else .error reason
  | _ => .error reason

def readNameSource (fields : List (String × Json)) : Except String SessionNameSource :=
  match Json.asString? (Json.lookup "nameSource" fields) with
  | some "generated" => .ok .generated
  | some "manual" => .ok .manual
  | _ => .error "project record has an invalid nameSource"

def readCreatedAt (fields : List (String × Json)) : Except String JsNumber :=
  match Json.lookup "createdAt" fields with
  | some (.num createdAt) =>
      if createdAt.isSafeInteger then .ok createdAt
      else .error "project record has an invalid createdAt"
  | _ => .error "project record has an invalid createdAt"

def readProfile (fields : List (String × Json)) : Except String (Option String) :=
  match Json.lookup "profile" fields with
  | none => .ok none
  | some (.str profile) =>
      if (codeUnits profile).length ≤ 64 then .ok (some profile)
      else .error "project record has an invalid profile"
  | some _ => .error "project record has an invalid profile"

/-- The recorded directory, checked against the real frontier. -/
def checkDirectory (roots : List String) (fs : FileSystem) (projectKey targetDir : String) :
    Except String String :=
  match realpath fs targetDir with
  | none => .error "the recorded project directory no longer exists on this machine"
  | some real =>
      if targetDir = real ∧ (roots.any fun root => real == joinPath root projectKey) = true then
        .ok real
      else .error ("the recorded project directory no longer resolves immediately inside " ++
        "an allowed root")

/-- The record, or the first reason to reject it. -/
def readProject (roots : List String) (fs : FileSystem) (projectKey : String)
    (fields : List (String × Json)) : Except String ProjectRecord := do
  let targetDir ← textField fields "targetDir" (fun _ => true)
    "project record is missing a string targetDir"
  let sessionId ← textField fields "sessionId" sessionIdPattern.test
    "project record has an invalid sessionId"
  let name ← textField fields "name"
    (fun name => 0 < (codeUnits name).length && (codeUnits name).length ≤ 64)
    "project record has an invalid name"
  let nameSource ← readNameSource fields
  let createdAt ← readCreatedAt fields
  let profile ← readProfile fields
  let real ← checkDirectory roots fs projectKey targetDir
  pure ⟨real, sessionId, profile, name, nameSource, createdAt⟩

structure LoadedBindings where
  bindings : PersistedBindings
  rejected : List (String × String)

/-- One entry of `projects`: a record that binds, or one that is rejected. -/
def loadProject (roots : List String) (fs : FileSystem) (loaded : LoadedBindings)
    (entry : String × Json) : Except SessionManagerError LoadedBindings := do
  let fields ← asRecord entry.2
  require (knows knownProjectKeys fields) (invalidBindings "unknown field in project record")
  match validateProjectKey entry.1 with
  | .error _ => throw (invalidBindings "a project record key is not a slug")
  | .ok projectKey =>
      match readProject roots fs projectKey fields with
      | .error reason => pure { loaded with rejected := loaded.rejected ++ [(projectKey, reason)] }
      | .ok record => pure { loaded with
          bindings.projects := loaded.bindings.projects.insert projectKey record }

def loadBindings (roots : List String) (fs : FileSystem) :
    StateFile → Except SessionManagerError LoadedBindings
  | .absent => .ok ⟨emptyBindings, []⟩
  | .unparsed => .error ⟨.invalidBinding, true, "the private state file could not be parsed",
      "remove the corrupted file from the private state directory; it will be rebuilt"⟩
  | .parsed raw => do
      let doc ← asRecord raw
      for (key, _) in doc do
        require (["version", "drivers", "projects"].contains key)
          (invalidBindings ("unknown field \"" ++ key ++ "\""))
      require (match Json.lookup "version" doc with
        | some (.num version) => version == 1
        | _ => false) (invalidBindings "written by a different version")
      let drivers ← (← recordAt "drivers" doc).foldlM
        (fun (drivers : KeyMap BindingRecord) entry =>
          return drivers.insert entry.1 (← loadDriver entry.2)) ∅
      (← recordAt "projects" doc).foldlM (loadProject roots fs) ⟨⟨drivers, ∅⟩, []⟩

/-- Something occupies the key under an allowed root. -/
def Housed (roots : List String) (fs : FileSystem) (projectKey : String) : Prop :=
  ∃ root ∈ roots, fs (joinPath root projectKey) ≠ .absent

theorem Housed.mono {roots : List String} {fs fs' : FileSystem} {key : String}
    (h : Housed roots fs key) (entries : ∀ path, fs path ≠ .absent → fs' path ≠ .absent) :
    Housed roots fs' key := by
  obtain ⟨root, mem, there⟩ := h
  exact ⟨root, mem, entries _ there⟩

section Loading

variable {roots : List String} {fs : FileSystem}

theorem entry_of_realpath {path real : String} (h : realpath fs path = some real) :
    fs path ≠ .absent := by
  intro absent
  simp [realpath, absent] at h

theorem housed_of_checkDirectory {projectKey targetDir real : String}
    (h : checkDirectory roots fs projectKey targetDir = .ok real) :
    Housed roots fs projectKey := by
  unfold checkDirectory at h
  split at h
  · cases h
  · rename_i found resolved
    split at h
    · rename_i inside
      obtain ⟨root, mem, same⟩ := List.any_eq_true.mp inside.2
      refine ⟨root, mem, ?_⟩
      rw [← beq_iff_eq.mp same, ← inside.1]
      exact entry_of_realpath resolved
    · cases h

/-- A loaded record's directory is there. -/
theorem housed_of_readProject {projectKey : String} {fields : List (String × Json)}
    {record : ProjectRecord} (h : readProject roots fs projectKey fields = .ok record) :
    Housed roots fs projectKey := by
  unfold readProject at h
  obtain ⟨_, -, h⟩ := bind_eq_ok.mp h
  obtain ⟨_, -, h⟩ := bind_eq_ok.mp h
  obtain ⟨_, -, h⟩ := bind_eq_ok.mp h
  obtain ⟨_, -, h⟩ := bind_eq_ok.mp h
  obtain ⟨_, -, h⟩ := bind_eq_ok.mp h
  obtain ⟨_, -, h⟩ := bind_eq_ok.mp h
  obtain ⟨_, checked, -⟩ := bind_eq_ok.mp h
  exact housed_of_checkDirectory checked

/-- What loading keeps of the projects. -/
def AllHoused (roots : List String) (fs : FileSystem) (loaded : LoadedBindings) : Prop :=
  ∀ key, (loaded.bindings.projects.lookup key).isSome → Housed roots fs key

theorem loadProject_housed {loaded next : LoadedBindings} {entry : String × Json}
    (housed : AllHoused roots fs loaded) (h : loadProject roots fs loaded entry = .ok next) :
    AllHoused roots fs next := by
  unfold loadProject at h
  obtain ⟨fields, -, h⟩ := bind_eq_ok.mp h
  obtain ⟨-, h⟩ := require_bind_eq_ok.mp h
  split at h
  · cases h
  · rename_i projectKey slug
    split at h
    · rw [pure_eq_ok] at h
      subst h
      exact housed
    · rename_i record read
      rw [pure_eq_ok] at h
      subst h
      intro key some
      rcases eq_or_ne key projectKey with rfl | hne
      · exact housed_of_readProject read
      · rw [AList.lookup_insert_ne hne] at some
        exact housed key some

/-- After loading, every project has a directory under an allowed root. -/
theorem loadBindings_housed {file : StateFile} {loaded : LoadedBindings}
    (h : loadBindings roots fs file = .ok loaded) : AllHoused roots fs loaded := by
  have nothing (drivers : KeyMap BindingRecord) :
      AllHoused roots fs ⟨⟨drivers, ∅⟩, []⟩ := by
    intro key some
    simp at some
  unfold loadBindings at h
  split at h
  · obtain rfl := Except.ok.inj h
    exact nothing ∅
  · cases h
  · obtain ⟨doc, -, h⟩ := bind_eq_ok.mp h
    obtain ⟨_, -, h⟩ := bind_eq_ok.mp h
    obtain ⟨-, h⟩ := require_bind_eq_ok.mp h
    obtain ⟨_, -, h⟩ := bind_eq_ok.mp h
    obtain ⟨drivers, -, h⟩ := bind_eq_ok.mp h
    obtain ⟨_, -, h⟩ := bind_eq_ok.mp h
    exact foldlM_invariant loadProject_housed (nothing drivers) h

end Loading

end AdCoder.SessionManager
