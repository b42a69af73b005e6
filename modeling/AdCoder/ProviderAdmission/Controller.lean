import Mathlib.Algebra.Order.Ring.Unbundled.Rat
import Mathlib.Data.List.Nodup

/-!
# The provider admission controller

A controller bounds, for every capacity scope, the calls in flight and the queue
of callers that wait for a permit, and stands a scope down while it cools down.
An operation runs to completion at one reading of the clock; only a `reserve`
call that waits is resumed later. What an operation persists is the snapshot of
the state it leaves.
-/

namespace AdCoder.ProviderAdmission

/-! ## Configuration -/

inductive AdmissionPriorityClass where
  | interactive
  | background
  | title
  deriving DecidableEq

/-- `ADMISSION_PRIORITY_CLASSES`. -/
def admissionPriorityClasses : List AdmissionPriorityClass := [.interactive, .background, .title]

/-- A configuration that `assertConfig` accepts. -/
structure ProviderAdmissionConfig where
  maxConcurrentPerScope : Nat
  queueCapacityPerScope : Nat
  maxWaitMs : ℚ
  priorityClasses : List AdmissionPriorityClass
  retryDelayMs : Nat
  cooldownMaxMs : ℚ
  concurrent_pos : 0 < maxConcurrentPerScope
  capacity_pos : 0 < queueCapacityPerScope
  maxWait_pos : 0 < maxWaitMs
  retryDelay_pos : 0 < retryDelayMs
  cooldownMax_pos : 0 < cooldownMaxMs
  classes_perm : priorityClasses.Perm admissionPriorityClasses

/-- `DEFAULT_PROVIDER_ADMISSION_CONFIG`. -/
def defaultProviderAdmissionConfig : ProviderAdmissionConfig where
  maxConcurrentPerScope := 1
  queueCapacityPerScope := 8
  maxWaitMs := 60000
  priorityClasses := admissionPriorityClasses
  retryDelayMs := 1000
  cooldownMaxMs := 86400000
  concurrent_pos := by decide
  capacity_pos := by decide
  maxWait_pos := by decide
  retryDelay_pos := by decide
  cooldownMax_pos := by decide
  classes_perm := .refl _

/-! ## State -/

/-- What a reserve call fails with. -/
inductive AdmissionError where
  | queueSaturated (scopeLabel : String) (position : Nat)
  | cancelled (scopeLabel : String)
  deriving DecidableEq

inductive TokenState where
  | admitted
  | queued
  | cancelled
  | settled
  | uncertain
  deriving DecidableEq

/-- Where the `reserve` call that awaits a token has got; `woken` and `refused`
calls have a continuation that has not run yet. -/
inductive ReserveCall where
  | idle
  | waiting
  | woken
  | refused (error : AdmissionError)
  | failed (error : AdmissionError)
  deriving DecidableEq

structure AdmissionToken where
  scopeLabel : String := ""
  scopeKey : String := ""
  priority : AdmissionPriorityClass := .interactive
  state : TokenState := .queued
  uncertain : Bool := false
  released : Bool := false
  settled : Bool := false
  unowned : Bool := false
  /-- Whether the back reference to the controller is set. -/
  controlled : Bool := false
  call : ReserveCall := .idle
  deriving DecidableEq

structure QueueEntry where
  priority : AdmissionPriorityClass
  enqueuedAt : ℚ
  token : Nat
  deriving DecidableEq

structure ScopeRuntime where
  concurrent : Nat := 0
  cooldownUntil : Option ℚ := none
  queue : List QueueEntry := []
  inFlightToken : Option Nat := none
  deriving DecidableEq

/-- The scope map with its keys in the order of insertion, every token that was
constructed, and the tokens in the order in which they were granted, which is the
order in which their callers are woken. -/
@[ext]
structure ProviderAdmissionController where
  keys : List String
  scopes : String → ScopeRuntime
  tokens : Nat → AdmissionToken
  issued : Nat
  grants : List Nat
  distinct : keys.Nodup

namespace ProviderAdmissionController

/-- A controller with no scopes. -/
def empty : ProviderAdmissionController where
  keys := []
  scopes := fun _ => {}
  tokens := fun _ => {}
  issued := 0
  grants := []
  distinct := .nil

def setScope (c : ProviderAdmissionController) (key : String) (scope : ScopeRuntime) :
    ProviderAdmissionController :=
  { c with scopes := Function.update c.scopes key scope }

def setToken (c : ProviderAdmissionController) (id : Nat) (token : AdmissionToken) :
    ProviderAdmissionController :=
  { c with tokens := Function.update c.tokens id token }

section Updates

variable (c : ProviderAdmissionController) (key : String) (scope : ScopeRuntime) (id : Nat)
  (token : AdmissionToken)

@[simp] theorem setScope_keys : (c.setScope key scope).keys = c.keys := rfl
@[simp] theorem setScope_scopes :
    (c.setScope key scope).scopes = Function.update c.scopes key scope := rfl
@[simp] theorem setScope_tokens : (c.setScope key scope).tokens = c.tokens := rfl
@[simp] theorem setScope_issued : (c.setScope key scope).issued = c.issued := rfl
@[simp] theorem setScope_grants : (c.setScope key scope).grants = c.grants := rfl
@[simp] theorem setToken_keys : (c.setToken id token).keys = c.keys := rfl
@[simp] theorem setToken_scopes : (c.setToken id token).scopes = c.scopes := rfl
@[simp] theorem setToken_tokens :
    (c.setToken id token).tokens = Function.update c.tokens id token := rfl
@[simp] theorem setToken_issued : (c.setToken id token).issued = c.issued := rfl
@[simp] theorem setToken_grants : (c.setToken id token).grants = c.grants := rfl

end Updates

def ensureScope (c : ProviderAdmissionController) (key : String) : ProviderAdmissionController :=
  if absent : key ∈ c.keys then c
  else { c.setScope key {} with
    keys := c.keys ++ [key]
    distinct := by
      rw [List.nodup_append]
      refine ⟨c.distinct, by simp, ?_⟩
      intro known hknown new hnew same
      rw [List.mem_singleton.mp hnew] at same
      exact absent (same ▸ hknown) }

end ProviderAdmissionController

/-! ## The scheduler -/

/-- A free permit outside a cooldown. -/
def canGrant (config : ProviderAdmissionConfig) (now : ℚ) (scope : ScopeRuntime) : Bool :=
  scope.concurrent < config.maxConcurrentPerScope &&
    match scope.cooldownUntil with
    | none => true
    | some cooldownUntil => now ≥ cooldownUntil

/-- An entry that has waited `maxWaitMs` counts as interactive. -/
def effectivePriority (config : ProviderAdmissionConfig) (now : ℚ) (entry : QueueEntry) :
    AdmissionPriorityClass :=
  if now - entry.enqueuedAt ≥ config.maxWaitMs then .interactive else entry.priority

def anyInteractiveWaiting (config : ProviderAdmissionConfig) (now : ℚ)
    (tokens : Nat → AdmissionToken) (queue : List QueueEntry) : Bool :=
  queue.any fun entry =>
    !(tokens entry.token).unowned && effectivePriority config now entry == .interactive

/-- Whether the scheduler passes an entry over: a restored placeholder, or a title
while interactive work waits. -/
def skips (config : ProviderAdmissionConfig) (now : ℚ) (tokens : Nat → AdmissionToken)
    (interactiveWaiting : Bool) (entry : QueueEntry) : Bool :=
  (tokens entry.token).unowned ||
    (effectivePriority config now entry == .title && interactiveWaiting)

/-- The best entry met so far. -/
structure Candidate where
  rank : Nat
  enqueuedAt : ℚ
  index : Nat

def Candidate.beatenBy (best : Option Candidate) (rank : Nat) (enqueuedAt : ℚ) : Bool :=
  match best with
  | none => true
  | some best => rank < best.rank || (rank == best.rank && enqueuedAt < best.enqueuedAt)

/-- The loop over the entries from `index` on. -/
def bestCandidate (config : ProviderAdmissionConfig) (now : ℚ) (tokens : Nat → AdmissionToken)
    (interactiveWaiting : Bool) : Option Candidate → Nat → List QueueEntry → Option Candidate
  | best, _, [] => best
  | best, index, entry :: rest =>
      let rank := config.priorityClasses.idxOf (effectivePriority config now entry)
      let next :=
        if skips config now tokens interactiveWaiting entry then best
        else if Candidate.beatenBy best rank entry.enqueuedAt then
          some ⟨rank, entry.enqueuedAt, index⟩
        else best
      bestCandidate config now tokens interactiveWaiting next (index + 1) rest

/-- The token of the best entry, and the queue without that entry. -/
def dequeueCandidate (config : ProviderAdmissionConfig) (now : ℚ) (tokens : Nat → AdmissionToken)
    (queue : List QueueEntry) : Option (Nat × List QueueEntry) :=
  let interactiveWaiting := anyInteractiveWaiting config now tokens queue
  match bestCandidate config now tokens interactiveWaiting none 0 queue with
  | none => none
  | some best => queue[best.index]?.map fun chosen => (chosen.token, queue.eraseIdx best.index)

/-! ## Tokens and permits -/

/-- An admitted token; a call that waits for it is woken. -/
def AdmissionToken.markAdmitted (token : AdmissionToken) : AdmissionToken :=
  { token with
    state := .admitted
    uncertain := false
    call := if token.call = .waiting then .woken else token.call }

/-- `cancel`: a call that waits for the token is refused. -/
def AdmissionToken.cancel (token : AdmissionToken) : AdmissionToken :=
  if token.state = .queued then
    { token with
      state := .cancelled
      call := if token.call = .waiting then .refused (.cancelled token.scopeLabel)
        else token.call }
  else token

namespace ProviderAdmissionController

variable (config : ProviderAdmissionConfig) (now : ℚ)

def grant (c : ProviderAdmissionController) (key : String) (id : Nat) :
    ProviderAdmissionController :=
  let scope := c.scopes key
  { (c.setToken id (c.tokens id).markAdmitted).setScope key { scope with
      concurrent := scope.concurrent + 1
      inFlightToken := some id } with
    grants := c.grants ++ [id] }

/-- A chosen entry leaves the queue, and its token is granted. -/
def grantFrom (c : ProviderAdmissionController) (key : String) (id : Nat)
    (rest : List QueueEntry) : ProviderAdmissionController :=
  (c.setScope key { c.scopes key with queue := rest }).grant key id

section Grants

variable (c : ProviderAdmissionController) (key : String) (id : Nat) (rest : List QueueEntry)

@[simp] theorem grant_keys : (c.grant key id).keys = c.keys := rfl
@[simp] theorem grant_issued : (c.grant key id).issued = c.issued := rfl
@[simp] theorem grant_tokens :
    (c.grant key id).tokens = Function.update c.tokens id (c.tokens id).markAdmitted := rfl
@[simp] theorem grant_scopes :
    (c.grant key id).scopes = Function.update c.scopes key { c.scopes key with
      concurrent := (c.scopes key).concurrent + 1
      inFlightToken := some id } := rfl
@[simp] theorem grantFrom_keys : (c.grantFrom key id rest).keys = c.keys := rfl
@[simp] theorem grantFrom_issued : (c.grantFrom key id rest).issued = c.issued := rfl
@[simp] theorem grantFrom_tokens :
    (c.grantFrom key id rest).tokens = Function.update c.tokens id (c.tokens id).markAdmitted := rfl
@[simp] theorem grantFrom_scopes :
    (c.grantFrom key id rest).scopes = Function.update c.scopes key { c.scopes key with
      queue := rest
      concurrent := (c.scopes key).concurrent + 1
      inFlightToken := some id } := by
  simp [grantFrom]

end Grants

/-- The loop of `pump` over one scope, for at most so many grants. -/
def pumpScope (key : String) : Nat → ProviderAdmissionController → ProviderAdmissionController
  | 0, c => c
  | fuel + 1, c =>
      let scope := c.scopes key
      if canGrant config now scope && !scope.queue.isEmpty then
        match dequeueCandidate config now c.tokens scope.queue with
        | none => c
        | some (id, rest) => pumpScope key fuel (c.grantFrom key id rest)
      else c

/-- Every grant takes an entry from the queue, so its length bounds the loop. -/
def pump (c : ProviderAdmissionController) : ProviderAdmissionController :=
  c.keys.foldl (fun c key => pumpScope config now key (c.scopes key).queue.length c) c

/-- The permit of a token goes back to its scope, before the queues are pumped. -/
def giveBack (c : ProviderAdmissionController) (id : Nat) : ProviderAdmissionController :=
  let key := (c.tokens id).scopeKey
  let scope := c.scopes key
  (c.setToken id { c.tokens id with settled := true }).setScope key { scope with
    inFlightToken := if scope.inFlightToken = some id then none else scope.inFlightToken
    concurrent := scope.concurrent - 1 }

def releaseToken (c : ProviderAdmissionController) (id : Nat) : ProviderAdmissionController :=
  if (c.tokens id).settled then c
  else if (c.tokens id).scopeKey ∈ c.keys then (c.giveBack id).pump config now
  else c.setToken id { c.tokens id with settled := true }

def settleToken (c : ProviderAdmissionController) (id : Nat) : ProviderAdmissionController :=
  if (c.tokens id).released || (c.tokens id).settled then c else c.releaseToken config now id

def cancel (c : ProviderAdmissionController) (id : Nat) : ProviderAdmissionController :=
  c.setToken id (c.tokens id).cancel

/-- The public release of a token. -/
def release (c : ProviderAdmissionController) (id : Nat) : ProviderAdmissionController :=
  if (c.tokens id).released then c
  else
    let marked := c.setToken id { c.tokens id with released := true }
    if (c.tokens id).state = .queued then marked.cancel id
    else if (c.tokens id).controlled then marked.releaseToken config now id
    else marked

def openCooldown (c : ProviderAdmissionController) (key : String) (retryAfterMs : Option Nat) :
    ProviderAdmissionController :=
  if key ∈ c.keys then
    let delay : ℚ := match retryAfterMs with
      | some hint => min (hint : ℚ) config.cooldownMaxMs
      | none => config.retryDelayMs
    c.setScope key { c.scopes key with cooldownUntil := some (now + delay) }
  else c

/-! ## Reserving -/

/-- A new token, under the next identity. -/
def construct (c : ProviderAdmissionController) (token : AdmissionToken) :
    ProviderAdmissionController :=
  { c.setToken c.issued token with issued := c.issued + 1 }

/-- The entry is appended, and the call waits for its token. -/
def park (c : ProviderAdmissionController) (key : String) (id : Nat)
    (priority : AdmissionPriorityClass) : ProviderAdmissionController :=
  let scope := c.scopes key
  (c.setScope key { scope with queue := scope.queue ++ [⟨priority, now, id⟩] }).setToken id
    { c.tokens id with call := .waiting }

section Park

variable (c : ProviderAdmissionController) (key : String) (id : Nat)
  (priority : AdmissionPriorityClass)

@[simp] theorem park_keys : (c.park now key id priority).keys = c.keys := rfl
@[simp] theorem park_issued : (c.park now key id priority).issued = c.issued := rfl
@[simp] theorem park_tokens : (c.park now key id priority).tokens =
    Function.update c.tokens id { c.tokens id with call := .waiting } := rfl
@[simp] theorem park_scopes : (c.park now key id priority).scopes =
    Function.update c.scopes key { c.scopes key with
      queue := (c.scopes key).queue ++ [⟨priority, now, id⟩] } := rfl

end Park

inductive ReserveResult where
  | granted (token : Nat)
  | parked (token : Nat)
  | refused (error : AdmissionError)

/-- The scope and the token of an arriving request. -/
def arrive (c : ProviderAdmissionController) (scopeKey scopeLabel : String)
    (priority : AdmissionPriorityClass) : ProviderAdmissionController :=
  (c.ensureScope scopeKey).construct
    { scopeLabel := scopeLabel, scopeKey := scopeKey, priority := priority, controlled := true }

/-- Parked requests outrank a fresh arrival. -/
def pumpWaiting (c : ProviderAdmissionController) (key : String) : ProviderAdmissionController :=
  if (c.scopes key).queue.isEmpty then c else c.pump config now

/-- `reserve` up to the return of the token or to its await. -/
def reserve (c : ProviderAdmissionController) (scopeKey scopeLabel : String)
    (priority : AdmissionPriorityClass) : ProviderAdmissionController × ReserveResult :=
  let id := c.issued
  let ready := (c.arrive scopeKey scopeLabel priority).pumpWaiting config now scopeKey
  let scope := ready.scopes scopeKey
  if canGrant config now scope then (ready.grant scopeKey id, .granted id)
  else if scope.queue.length ≥ config.queueCapacityPerScope then
    (ready, .refused (.queueSaturated scopeLabel scope.queue.length))
  else (ready.park now scopeKey id priority, .parked id)

def removeFromQueue (c : ProviderAdmissionController) (key : String) (id : Nat) :
    ProviderAdmissionController :=
  c.setScope key { c.scopes key with queue := (c.scopes key).queue.eraseP (·.token == id) }

/-- The continuation of a `reserve` call after its await: it returns the token, or
removes a cancelled entry and fails. -/
def resume (c : ProviderAdmissionController) (id : Nat) : ProviderAdmissionController :=
  let token := c.tokens id
  match token.call with
  | .woken => c.setToken id { token with call := .idle }
  | .refused error =>
      if token.state = .cancelled then
        (c.removeFromQueue token.scopeKey id).setToken id
          { token with call := .failed (.cancelled token.scopeLabel) }
      else c.setToken id { token with call := .failed error }
  | _ => c

end ProviderAdmissionController

end AdCoder.ProviderAdmission
