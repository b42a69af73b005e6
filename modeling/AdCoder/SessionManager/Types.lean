import AdCoder.Foundation.Json
import AdCoder.Foundation.Runs

/-!
# The vocabulary of the session manager

Project keys are slugs, driver keys name a front, and every refusal is a typed
error with a safe text.
-/

namespace AdCoder.SessionManager

open Foundation Foundation.Regex

inductive SessionManagerErrorCode where
  | invalidKey
  | invalidBinding
  | unsafePath
  | notFound
  | creationDisabled
  | creationLimit
  | invalidDriver
  | invalidProjectKey
  | projectUnsafe
  | projectExists
  | projectNotFound
  | sessionLeaseHeld
  | handoffPending
  | handoffNotRecorded
  | notBound
  deriving DecidableEq

structure SessionManagerError where
  code : SessionManagerErrorCode
  retryable : Bool
  message : String
  nextAction : String
  deriving DecidableEq

/-! ## Keys -/

/-- `PROJECT_KEY_PATTERN`. -/
def projectKeyPattern : Regex :=
  let lead := fun x => ('a' ≤ x && x ≤ 'z') || isDigit x
  sequence [atStart, .one lead, .rep true 0 (some 62) (.one fun x => lead x || x == '-'), atEnd]

def projectKeyShape : String :=
  "project key must be 1..63 characters: lowercase letters, digits, and dashes, " ++
    "starting alphanumeric"

def validateProjectKey (input : String) : Except SessionManagerError String :=
  let slug := "use a slug like `notes-site`"
  let units := (codeUnits input).length
  if units = 0 ∨ 63 < units then .error ⟨.invalidProjectKey, false, projectKeyShape, slug⟩
  else if input = "git" ∨ input = "ad-coder" then
    .error ⟨.invalidKey, false, "the project keys `git` and `ad-coder` are reserved",
      "choose another slug"⟩
  else if projectKeyPattern.test input then .ok input
  else if (literal "/").test input || (literal "\\").test input || (literal "..").test input then
    .error ⟨.projectUnsafe, false, "project key contains a path separator or traversal; " ++
      "refused before any filesystem access", slug⟩
  else .error ⟨.invalidProjectKey, false, projectKeyShape, slug⟩

theorem validateProjectKey_eq_ok {input key : String} (h : validateProjectKey input = .ok key) :
    key = input := by
  dsimp only [validateProjectKey] at h
  split at h
  · cases h
  · split at h
    · cases h
    · split at h
      · exact (Except.ok.inj h).symm
      · split at h <;> cases h

inductive DriverKind where
  | console
  | telegram
  deriving DecidableEq

/-- `DRIVER_KEY_PATTERN`. -/
def driverKeyPattern : Regex := sequence [atStart, choice [literal "console", literal "telegram"],
  literal ":", .rep true 1 (some 64) (.one fun x => isAlnum x || "._:-".toList.contains x), atEnd]

/-- `driverKeyKind`, of a key that has the shape. -/
def driverKeyKind (driverKey : String) : DriverKind :=
  if (sequence [atStart, literal "console:"]).test driverKey then .console else .telegram

/-! ## Durable records -/

/-- A lease file record; `releasedAt` is the only adoption gate. -/
structure LeaseRecord where
  sessionId : String
  pid : Nat
  host : String
  ownerToken : String
  createdAt : JsNumber
  releasedAt : Option JsNumber
  deriving DecidableEq

inductive SessionLeaseState where
  | none
  | stale
  | live
  | released
  deriving DecidableEq

end AdCoder.SessionManager
