import AdCoder.SessionManager.Bindings
import AdCoder.SessionManager.Lease

/-!
# The session manager

The manager keeps its bindings in memory and writes them as a whole. Each method
runs up to its wait for the conversation host in one piece; an open goes on after
that wait, so another method may run in between. Files in the state directory
are written without failing.
-/

namespace AdCoder.SessionManager

open Foundation Foundation.Regex

/-- The options of a manager, with its real roots. -/
structure SessionManagerOptions where
  roots : List String
  stateDir : String
  maxProjects : Nat
  hostname : String
  uid : Nat
  /-- The hexadecimal digest. -/
  sha256 : String → String
  roots_ne : roots ≠ []

/-- `deriveSessionId`. -/
def deriveSessionId (options : SessionManagerOptions) (projectKey : String) : String :=
  "sess" ++ String.ofList
    ((options.sha256 (options.stateDir ++ "\u0000" ++ projectKey)).toList.take 18)

/-- How the creation of a directory, its scaffold and its repository went. -/
inductive CreationOutcome where
  | created
  | exists
  | notMade
  | misplaced
  | scaffoldFailed
  | gitFailed (detail : String)
  deriving DecidableEq

/-- What the host answers during one call. -/
structure CallHost where
  identity : LeaseIdentity
  now : JsNumber
  ownerToken : String
  creation : CreationOutcome

inductive ManagerFailure where
  | typed (error : SessionManagerError)
  | rangeError (message : String)
  | host
  deriving DecidableEq

/-- A live manager's memory and the files that it works on. -/
structure ManagerState where
  pid : Nat
  bindings : PersistedBindings
  file : StateFile
  leases : String → LeaseFile
  fs : FileSystem

namespace ManagerState

abbrev Result (α : Type) := Except ManagerFailure α × ManagerState

variable (options : SessionManagerOptions) (host : CallHost) (s : ManagerState)

/-! ### Pieces -/

/-- Go on with the result of checks that read only. -/
def attempt {α β : Type} (check : Except SessionManagerError α) (next : α → Result β) :
    Result β :=
  match check with
  | .error error => (.error (.typed error), s)
  | .ok a => next a

def save : ManagerState := { s with file := .parsed s.bindings.toJson }

def setDriver (driverKey projectKey : String) : ManagerState :=
  { s with bindings.drivers :=
      s.bindings.drivers.insert driverKey ⟨projectKey, driverKeyKind driverKey⟩ }

def setProject (projectKey : String) (record : ProjectRecord) : ManagerState :=
  { s with bindings.projects := s.bindings.projects.insert projectKey record }

def writeLease (projectKey : String) (records : List LeaseRecord) : ManagerState :=
  { s with leases :=
      Function.update s.leases projectKey ((s.leases projectKey).replaced records) }

def probe (projectKey : String) : Except SessionManagerError LeaseProbe :=
  probeLease host.identity projectKey (s.leases projectKey)

def assertDriverKeyShape (driverKey : String) : Except SessionManagerError Unit :=
  require (driverKeyPattern.test driverKey) ⟨.invalidDriver, false,
    "driver key must be `<kind>:<owner>` with kind console or telegram, derived by the server",
    "use the driver key the session-manager server attributed to this connection"⟩

def leaseHeld : SessionManagerError := ⟨.sessionLeaseHeld, false,
  "a live standalone session holds this project's lease; it is never opened or stolen",
  "use the standalone console, or ask it to accept handoff first"⟩

/-- `resolveProjectDir`: the first root where something occupies the key. -/
def resolveProjectDir (fs : FileSystem) (roots : List String) (projectKey : String) :
    Except SessionManagerError (Option String) :=
  match roots with
  | [] => .ok none
  | root :: rest =>
      match fs (joinPath root projectKey) with
      | .absent => resolveProjectDir fs rest projectKey
      | .symlink _ => .error ⟨.projectUnsafe, false,
          "a symlink occupies the project key; refusing to follow it",
          "remove the symlink or choose another key"⟩
      | .other => .error ⟨.projectUnsafe, false,
          "the project key is occupied by a non-directory",
          "choose another key or move the existing entry"⟩
      | .directory real =>
          if real = joinPath root projectKey then .ok (some real)
          else .error ⟨.projectUnsafe, false, "the project directory resolves outside every " ++
            "allowed root; refusing to open it",
            "move the directory under a configured root, or choose another key"⟩

/-- A new record under the derived session id. -/
def newRecord (projectKey targetDir : String) : ProjectRecord :=
  ⟨targetDir, deriveSessionId options projectKey, none, sessionFallbackName, .generated, host.now⟩

structure SessionListItem where
  sessionId : String
  projectKey : String
  name : String
  nameSource : SessionNameSource
  standalone : Bool
  leaseState : SessionLeaseState
  attachedDrivers : Nat
  selectedByThisDriver : Bool
  activeTurn : Bool
  lastActivityAt : JsNumber

def projectListItem (projectKey : String) (probe : LeaseProbe) : SessionListItem :=
  let record := s.bindings.projects.lookup projectKey
  { sessionId := (record.map (·.sessionId)).getD
      ((probe.record.map (·.sessionId)).getD "standalone")
    projectKey := projectKey
    name := (record.map (·.name)).getD sessionFallbackName
    nameSource := (record.map (·.nameSource)).getD .generated
    standalone := isStandaloneLive probe
    leaseState := probe.state
    attachedDrivers := s.bindings.drivers.entries.countP fun e => e.2.projectKey == projectKey
    selectedByThisDriver := record.isSome
    activeTurn := false
    lastActivityAt := (probe.record.bind (·.releasedAt)).getD
      ((probe.record.map (·.createdAt)).getD host.now) }

def itemForRecord (projectKey : String) : Result SessionListItem :=
  s.attempt (s.probe host projectKey) fun probe => (.ok (s.projectListItem host projectKey probe), s)

/-! ### Creating, binding and opening -/

/-- `createProject` up to its wait. What was made stays there when a later part fails. -/
def createProject (projectKey : String) : Result Unit :=
  s.attempt (do
    let _ ← validateProjectKey projectKey
    require (options.maxProjects != 0) ⟨.creationDisabled, false,
      "project creation is disabled (`session-manager.max-projects: 0`)",
      "raise max-projects in settings.yaml to allow creation"⟩
    require (decide (s.bindings.projects.keys.length < options.maxProjects)) ⟨.creationLimit,
      false, "the project creation volume cap (" ++ toString options.maxProjects ++ ") is reached",
      "remove old projects or raise session-manager.max-projects"⟩
    let resolved ← resolveProjectDir s.fs options.roots projectKey
    require resolved.isNone ⟨.projectExists, false, "a project with that key already exists",
      "list existing projects first; safe creation never overwrites"⟩
    match options.roots.find? fun root => (realpath s.fs (joinPath root projectKey)).isNone with
    | some rootReal => pure (joinPath rootReal projectKey)
    | none => throw ⟨.invalidKey, false,
        "the project key is occupied under some root or no root accepts it",
        "choose another slug"⟩) fun dir =>
  let made := { s with fs := Function.update s.fs dir (.directory dir) }
  match host.creation with
  | .exists => (.error (.typed ⟨.projectExists, false,
      "a project with that key already exists (or appeared while creating)",
      "list existing projects first; safe creation never overwrites"⟩), s)
  | .notMade => (.error (.typed ⟨.projectUnsafe, true,
      "the project directory could not be created", "check the allowed root is writable"⟩), s)
  | .misplaced => (.error (.typed ⟨.projectUnsafe, false, "the created directory did not " ++
      "resolve immediately under the root; refusing to proceed",
      "check for unexpected filesystem state under the allowed root"⟩), made)
  | .scaffoldFailed => (.error .host, made)
  | .gitFailed detail => (.error (.typed ⟨.projectUnsafe, true, "git init failed (" ++ detail,
      "verify git is installed and the allowed root is writable"⟩), made)
  | .created => (.ok (), (made.setProject projectKey (newRecord options host projectKey dir)).save)

def bindDriver (projectKey driverKey : String) : Result Unit :=
  s.attempt (do
    assertDriverKeyShape driverKey
    let key ← validateProjectKey projectKey
    match ← resolveProjectDir s.fs options.roots key with
    | some dir => pure (key, dir)
    | none => throw ⟨.projectNotFound, false,
        "no project directory occupies that key under an allowed root",
        "create the project first, or check the configured allowed roots"⟩) fun (key, dir) =>
  let bound := s.setDriver driverKey key
  let bound := if (s.bindings.projects.lookup key).isSome then bound
    else bound.setProject key (newRecord options host key dir)
  (.ok (), bound.save)

def unbindDriver (driverKey : String) (projectKey : Option String) : Result Unit :=
  s.attempt (do
    assertDriverKeyShape driverKey
    match s.bindings.drivers.lookup driverKey with
    | none => throw ⟨.notBound, false, "that front has no project binding", "bind a project first"⟩
    | some binding => require (projectKey.all (· == binding.projectKey)) ⟨.invalidBinding, false,
        "the front's binding does not name that project", "list the front's binding first"⟩)
  fun _ => (.ok (), { s with bindings.drivers := s.bindings.drivers.erase driverKey }.save)

/-- An open that waits for the conversation host. -/
structure Opening where
  projectKey : String
  driverKey : String
  created : Bool
  deriving DecidableEq

/-- The checks of an open of a recorded project; the records that its own lease needs. -/
def reopen (key : String) (record : ProjectRecord) :
    Except SessionManagerError (List LeaseRecord) := do
  let probe ← s.probe host key
  require (!(probe.record.any (·.sessionId != record.sessionId) && probe.state != .released))
    ⟨.handoffNotRecorded, false,
      "a live lease names a different session than the project's shared conversation",
      "let the holding front accept handoff first"⟩
  require (!isStandaloneLive probe) leaseHeld
  if probe.state = .stale ∨ probe.state = .none then
    acquireManagerLease host.identity.now ⟨s.pid, options.hostname, host.ownerToken⟩
      record.sessionId (← s.probe host key)
  else pure []

/-- `ensureSession` up to its wait. The driver is bound before anything can fail. -/
def ensureSession (projectKey driverKey : String) : Result Opening :=
  s.attempt (do
    assertDriverKeyShape driverKey
    validateProjectKey projectKey) fun key =>
  let s := if (s.bindings.drivers.lookup driverKey).any (·.projectKey == key) then s
    else s.setDriver driverKey key
  match s.bindings.projects.lookup key with
  | none =>
      s.attempt (do require (!isStandaloneLive (← s.probe host key)) leaseHeld) fun _ =>
      match s.createProject options host key with
      | (.error failure, s) => (.error failure, s)
      | (.ok _, s) => (.ok ⟨key, driverKey, true⟩, s)
  | some record =>
      s.attempt (s.reopen options host key record) fun records =>
      (.ok ⟨key, driverKey, false⟩, (s.writeLease key records).save)

/-- The rest of an open, after its wait. -/
def opened (opening : Opening) : Result SessionListItem :=
  if opening.created then
    let s := (s.setDriver opening.driverKey opening.projectKey).save
    if (s.bindings.projects.lookup opening.projectKey).isSome then
      s.itemForRecord host opening.projectKey
    else (.error (.typed ⟨.invalidBinding, false,
      "the freshly created project record could not be read back",
      "list the managed projects and retry the open"⟩), s)
  else s.itemForRecord host opening.projectKey

/-! ### Names and handoff -/

def requireRecord (key : String) : Except SessionManagerError ProjectRecord :=
  match s.bindings.projects.lookup key with
  | some record => .ok record
  | none => .error ⟨.projectNotFound, false, "no managed project record carries that key",
      "list the managed projects first"⟩

/-- `renameSession`, with what `createManualSessionName` made of the raw name. -/
def renameSession (projectKey : String) (manual : Except String String) : Result Unit :=
  s.attempt (do
    let key ← validateProjectKey projectKey
    pure (key, ← s.requireRecord key)) fun (key, record) =>
  match manual with
  | .error message => (.error (.rangeError message), s)
  | .ok name => (.ok (), (s.setProject key { record with name, nameSource := .manual }).save)

/-- `setTitleFromGeneration`, with the title that the sanitizer left. -/
def setTitleFromGeneration (projectKey sanitized : String) : Result Unit :=
  s.attempt (do
    let key ← validateProjectKey projectKey
    pure (key, ← s.requireRecord key)) fun (key, record) =>
  if record.nameSource = .manual then (.ok (), s)
  else (.ok (), (s.setProject key
    { record with name := sanitized, nameSource := .generated }).save)

def adoptAfterRelease (projectKey : String) : Result SessionListItem :=
  s.attempt (do
    let key ← validateProjectKey projectKey
    match (← s.probe host key).record with
    | some lease =>
        require lease.releasedAt.isSome ⟨.handoffNotRecorded, false,
          "the standalone side has not recorded its release; adoption is refused",
          "wait for :handoff accept to settle before adopting"⟩
        pure (key, lease.sessionId)
    | none => throw ⟨.handoffNotRecorded, false,
        "the standalone side has not recorded its release; adoption is refused",
        "wait for :handoff accept to settle before adopting"⟩) fun (key, sessionId) =>
  if (s.bindings.projects.lookup key).isSome then s.itemForRecord host key
  else
    match s.bindDriver options host key ("console:u" ++ toString options.uid) with
    | (.error failure, s) => (.error failure, s)
    | (.ok _, s) =>
        s.attempt (match s.bindings.projects.lookup key with
          | some record => .ok record
          | none => .error ⟨.invalidBinding, false,
              "the adopted project record could not be read back after binding",
              "list the managed projects and retry the adoption"⟩) fun record =>
        (s.setProject key { record with sessionId }).save.itemForRecord host key

def recordStandaloneRelease (projectKey : String) : Result Unit :=
  s.attempt (do
    let key ← validateProjectKey projectKey
    let probe ← s.probe host key
    let sessionId := ((s.bindings.projects.lookup key).map (·.sessionId)).getD ""
    pure (key, ← recordStandaloneReleaseInLease host.identity.now sessionId probe))
  fun (key, records) => (.ok (), s.writeLease key records)

/-! ### Construction -/

/-- `new SessionManager`: rejected records are dropped from the file as well. -/
def construct (pid : Nat) : Result (List (String × String)) :=
  s.attempt (loadBindings options.roots s.fs s.file) fun loaded =>
  let started := { s with pid, bindings := loaded.bindings }
  (.ok loaded.rejected, if loaded.rejected = [] then started else started.save)

end ManagerState

end AdCoder.SessionManager
