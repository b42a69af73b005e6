import AdCoder.ProjectOperations.FileBacklog
import AdCoder.ProjectOperations.FollowUpRecords

/-!
# The GitHub backlog

An item is an issue: its status is a label and the rest is JSON in the body.
The command executor is a parameter; a worker's lock file guards each change,
and the shared coordinator lets one call run at a time.
-/

namespace AdCoder.ProjectOperations

open Foundation Foundation.Regex

/-! ## Configuration -/

/-- `SAFE_LABEL`. -/
def safeLabel : Regex := sequence [atStart,
  .rep true 1 (some 100) (.one fun x => isAlnum x || ":_.-".toList.contains x), atEnd]

/-- `REPOSITORY`. -/
def repositoryName : Regex :=
  let part := plus (.one fun x => isAlnum x || "_.-".toList.contains x)
  sequence [atStart, part, literal "/", part, atEnd]

/-- `DEFAULT_LABELS`. -/
def defaultLabels : BacklogState → String
  | .queued => "ad-coder:queued"
  | .claimed => "ad-coder:claimed"
  | .inProgress => "ad-coder:in-progress"
  | .review => "ad-coder:review"
  | .blocked => "ad-coder:blocked"
  | .done => "ad-coder:done"

/-- What the constructor of the store keeps of the configuration. -/
structure GitHubConfig where
  repository : String
  labels : BacklogState → String
  managedLabel : String
  leaseMs : Nat

/-- The checks of the constructor. -/
def gitHubConfig (repository : Option String) (stateLabels : BacklogState → Option String)
    (managedLabel : Option String) (claimLeaseMs : Option JsNumber) :
    Except ProjectOperationsError GitHubConfig :=
  match repository.filter repositoryName.test with
  | none => .error ⟨.invalidConfig, "github.repository"⟩
  | some repository =>
      let labels := fun state => (stateLabels state).getD (defaultLabels state)
      let managed := managedLabel.getD "ad-coder:managed"
      match claimLeaseMs.getD 0 with
      | .finite lease =>
          if (JsNumber.finite lease).isSafeInteger = false ∨ lease < 0 then
            .error ⟨.invalidConfig, "claimLeaseMs"⟩
          else if (managed :: BacklogState.all.map labels).all safeLabel.test then
            .ok ⟨repository, labels, managed, lease.num.toNat⟩
          else .error ⟨.invalidConfig, "github.labels"⟩
      | _ => .error ⟨.invalidConfig, "claimLeaseMs"⟩

/-! ## Issues and commands -/

structure IssueBody where
  schema : Nat
  revision : Nat
  candidate : Json
  claim : Option BacklogClaim
  createdAt : Nat
  updatedAt : Nat

/-- An issue; its body is `none` when the text is not JSON. -/
structure GitHubIssue where
  number : Nat
  body : Option IssueBody
  labels : List String

inductive GitHubRequest where
  | issue (repository id : String)
  | patch (repository id : String) (body : IssueBody) (labels : List String)
      (state : Option String)

/-- `runJson` over the injected executor: the issue in the response, or why the
command gave none. The state is whatever the executor acts on. -/
structure GitHubExecutor (σ : Type) where
  execute : σ → GitHubRequest → Except String GitHubIssue × σ

/-- `/^[1-9]\\d*$/`. -/
def issueNumber : Regex :=
  sequence [atStart, .one (fun x => '1' ≤ x && x ≤ '9'), star (.one isDigit), atEnd]

/-- What the store relies on GitHub for: a view shows the issue under a number,
and a patch replaces its body and its labels and touches no other issue. -/
structure GitHubExecutor.Faithful {σ : Type} (executor : GitHubExecutor σ) (repository : String)
    (issues : σ → String → Option GitHubIssue) : Prop where
  viewed : ∀ remote id, (executor.execute remote (.issue repository id)).1.toOption =
    issues remote id
  view_keeps : ∀ remote id,
    issues (executor.execute remote (.issue repository id)).2 = issues remote
  numbered : ∀ remote id issue, issueNumber.test id = true → issues remote id = some issue →
    toString issue.number = id
  patched : ∀ remote id body labels state old, issues remote id = some old →
    ∃ issue, (executor.execute remote (.patch repository id body labels state)).1 = .ok issue ∧
      issue.body = some body ∧ (∀ label, label ∈ issue.labels ↔ label ∈ labels) ∧
      issues (executor.execute remote (.patch repository id body labels state)).2 =
        Function.update (issues remote) id (some issue)

/-! ## The store -/

structure CoordinationLock where
  pending : Bool
  startedAt : Nat
  deriving DecidableEq

def CoordinationLock.toJson (lock : CoordinationLock) : Json :=
  .obj [("pending", .bool lock.pending), ("startedAt", .num (.finite lock.startedAt))]

/-- What GitHub holds, and the lock files of this worker's project store. -/
structure GitHubWorld (σ : Type) where
  remote : σ
  locks : VersionedFiles String CoordinationLock

def invalidManagedIssue : BacklogFailure :=
  .operations ⟨.githubUnavailable, "invalid managed issue"⟩

/-- The target states of `transition` in this store. -/
def gitHubAllowed : BacklogState → List BacklogState
  | .queued => [.claimed]
  | .claimed => [.inProgress, .blocked, .queued]
  | .inProgress => [.review, .blocked, .queued]
  | .review => [.inProgress, .blocked, .done]
  | .blocked => [.queued]
  | .done => []

def validateGitHubClaim (input : ClaimInput) : Except ProjectOperationsError Unit :=
  require (isSafeIdentifier input.owner && isSafeIdentifier input.runId &&
    isSafeIdentifier input.branch) ⟨.invalidConfig, "claim"⟩

namespace GitHubBacklogStore

variable {σ : Type} (format : StateFormat) (executor : GitHubExecutor σ) (config : GitHubConfig)

/-- The item that an issue stands for. -/
def state (issue : GitHubIssue) : Except BacklogFailure (VersionedState BacklogItem) :=
  match issue.body with
  | none => .error invalidManagedIssue
  | some body =>
      match BacklogState.all.find? fun key => issue.labels.contains (config.labels key) with
      | none => .error invalidManagedIssue
      | some status =>
          if body.schema ≠ 1 then .error invalidManagedIssue
          else
            match validateFollowUp format.showNumber 0 body.candidate with
            | .ok (.backlog candidate) => .ok ⟨body.revision, {
                id := toString issue.number
                status := status
                candidate := projectBacklogFollowUp candidate
                claim := body.claim
                createdAt := body.createdAt
                updatedAt := body.updatedAt }⟩
            | .ok _ => .error invalidManagedIssue
            | .error error => .error (.operations error)

/-- One command, whose response must be an issue. -/
def runJson (remote : σ) (request : GitHubRequest) : Except BacklogFailure GitHubIssue × σ :=
  let (response, next) := executor.execute remote request
  (response.mapError fun detail => .operations ⟨.githubUnavailable, detail⟩, next)

def read (remote : σ) (id : String) : Except BacklogFailure GitHubIssue × σ :=
  if issueNumber.test id then runJson executor remote (.issue config.repository id)
  else (.error (.operations ⟨.notFound, id⟩), remote)

def get (remote : σ) (id : String) : Except BacklogFailure (VersionedState BacklogItem) × σ :=
  let (issue, next) := read executor config remote id
  (issue.bind (state format config), next)

/-- The version under which the lock was taken, and the lock files after it. -/
def acquireMutation (locks : VersionedFiles String CoordinationLock) (id : String) (now : Nat) :
    Except BacklogFailure (Nat × VersionedFiles String CoordinationLock) := do
  let current ← match readVersionedJson format CoordinationLock.toJson locks id with
    | .ok held => .ok held
    | .error .notFound => .ok (⟨0, ⟨false, 0⟩⟩ : VersionedState CoordinationLock)
    | .error code => .error (BacklogFailure.store code)
  let expired := current.value.pending && 0 < config.leaseMs &&
    current.value.startedAt + config.leaseMs ≤ now
  require (!current.value.pending || expired) (.operations ⟨.claimConflict, id⟩)
  match writeVersionedJson format CoordinationLock.toJson locks id current.version
      ⟨true, now⟩ with
  | .ok (acquired, next) => .ok (acquired.version, next)
  | .error .versionConflict => .error (.operations ⟨.claimConflict, id⟩)
  | .error code => .error (.store code)

/-- The change of an issue under its lock. -/
def changeIssue (remote : σ) (id : String)
    (mutate : BacklogItem → Except ProjectOperationsError BacklogItem) :
    Except BacklogFailure (VersionedState BacklogItem) × σ :=
  let (found, remote) := get format executor config remote id
  match found with
  | .error error => (.error error, remote)
  | .ok current =>
      match mutate current.value with
      | .error error => (.error (.operations error), remote)
      | .ok next =>
          let payload : IssueBody := {
            schema := 1
            revision := current.version + 1
            candidate := next.candidate.toJson
            claim := next.claim
            createdAt := next.createdAt
            updatedAt := next.updatedAt }
          let (issue, remote) := runJson executor remote (.patch config.repository id payload
            [config.labels next.status, config.managedLabel]
            (if next.status = .done then some "closed" else none))
          (issue.bind (state format config), remote)

/-- `update`: the lock is released whether or not the change succeeded. -/
def update (world : GitHubWorld σ) (id : String) (lockTime : Nat)
    (mutate : BacklogItem → Except ProjectOperationsError BacklogItem) :
    Except BacklogFailure (VersionedState BacklogItem) × GitHubWorld σ :=
  match acquireMutation format config world.locks id lockTime with
  | .error error => (.error error, world)
  | .ok (version, locks) =>
      let (result, remote) := changeIssue format executor config world.remote id mutate
      match writeVersionedJson format CoordinationLock.toJson locks id version ⟨false, 0⟩ with
      | .ok (_, released) => (result, ⟨remote, released⟩)
      | .error code => (.error (.store code), ⟨remote, locks⟩)

/-! ## Operations -/

/-- The mutation inside `claim`. -/
def claim (id : String) (input : ClaimInput) (time : Nat) (current : BacklogItem) :
    Except ProjectOperationsError BacklogItem :=
  let expired := current.claim.any fun claim =>
    0 < claim.leaseExpiresAt && claim.leaseExpiresAt ≤ time
  if current.status ≠ .queued ∧ expired = false then .error ⟨.claimConflict, id⟩
  else .ok { current with
    status := .claimed
    claim := some { toClaimInput := input, claimedAt := time, leaseExpiresAt :=
      if config.leaseMs = 0 then 0 else time + config.leaseMs }
    updatedAt := time }

/-- The mutation inside `renew`. -/
def renew (id : String) (input : ClaimInput) (time : Nat) (current : BacklogItem) :
    Except ProjectOperationsError BacklogItem := do
  let active ← requireActiveClaim current.claim input time id
  return { current with
    claim := some { active with leaseExpiresAt :=
      if config.leaseMs = 0 then 0 else time + config.leaseMs }
    updatedAt := time }

/-- The mutation inside `transition`. -/
def transition (id : String) (state : BacklogState) (input : ClaimInput) (time : Nat)
    (current : BacklogItem) : Except ProjectOperationsError BacklogItem := do
  let _ ← requireActiveClaim current.claim input time id
  require ((gitHubAllowed current.status).contains state)
    ⟨.invalidTransition, current.status.text ++ ":" ++ state.text⟩
  let base := { current with status := state, updatedAt := time }
  if state = .queued ∨ state = .done then return { base with claim := none }
  else return base

def mutation (id : String) (call : BacklogCall) (time : Nat) :
    BacklogItem → Except ProjectOperationsError BacklogItem :=
  match call with
  | .claim input => claim config id input time
  | .renew input => renew config id input time
  | .release input => transition id .queued input time
  | .transition state input => transition id state input time

def perform (world : GitHubWorld σ) (timed : TimedCall) :
    Except BacklogFailure (VersionedState BacklogItem) × GitHubWorld σ :=
  match validateGitHubClaim timed.call.input with
  | .error error => (.error (.operations error), world)
  | .ok _ => update format executor config world timed.id timed.lockTime
      (mutation config timed.id timed.call timed.time)

/-- The store as a service. -/
def service : Service TimedCall BacklogAnswer (GitHubWorld σ) :=
  fun world timed =>
    let (result, next) := perform format executor config world timed
    (backlogAnswer result, next)

end GitHubBacklogStore

end AdCoder.ProjectOperations
