import AdCoder.Foundation.Versioned
import AdCoder.ProjectOperations.FollowUps

/-!
# Backlog items and their file store

What each operation of the file store writes over the item it read. The store
reads the item, reads the clock, decides, and then writes against the version
it read; the decision is a function of the item and the time alone.
-/

namespace AdCoder.ProjectOperations

open Foundation

inductive BacklogState where
  | queued
  | claimed
  | inProgress
  | review
  | blocked
  | done
  deriving DecidableEq

namespace BacklogState

def text : BacklogState → String
  | queued => "queued"
  | claimed => "claimed"
  | inProgress => "in_progress"
  | review => "review"
  | blocked => "blocked"
  | done => "done"

/-- `BACKLOG_STATES`. -/
def all : List BacklogState := [queued, claimed, inProgress, review, blocked, done]

theorem mem_all (state : BacklogState) : state ∈ all := by
  cases state <;> decide

/-- `TRANSITIONS`. -/
def transitions : BacklogState → List BacklogState
  | queued => [claimed]
  | claimed => [inProgress, blocked, queued]
  | inProgress => [review, blocked, queued]
  | review => [inProgress, blocked, done]
  | blocked => [queued]
  | done => []

/-- The states in which an item is held by somebody. -/
def held : BacklogState → Bool
  | queued => false
  | done => false
  | _ => true

end BacklogState

structure ClaimInput where
  owner : String
  runId : String
  branch : String
  deriving DecidableEq

structure BacklogClaim extends ClaimInput where
  claimedAt : Nat
  leaseExpiresAt : Nat
  deriving DecidableEq

structure BacklogItem where
  id : String
  status : BacklogState
  candidate : BacklogFollowUp
  claim : Option BacklogClaim
  createdAt : Nat
  updatedAt : Nat
  deriving DecidableEq

/-- `CLAIM_ID`, without a parent segment or an absolute path. -/
def validateClaim (input : ClaimInput) : Except ProjectOperationsError ClaimInput := do
  require (isSafeIdentifier input.owner) ⟨.invalidConfig, "owner"⟩
  require (isSafeIdentifier input.runId) ⟨.invalidConfig, "runId"⟩
  require (isSafeIdentifier input.branch) ⟨.invalidConfig, "branch"⟩
  return input

namespace BacklogClaim

/-- The lease has an end and the end has come. -/
def expired (claim : BacklogClaim) (now : Nat) : Bool :=
  0 < claim.leaseExpiresAt && claim.leaseExpiresAt ≤ now

theorem expired_mono {claim : BacklogClaim} {now later : Nat} (h : claim.expired now = true)
    (le : now ≤ later) : claim.expired later = true := by
  simp only [expired, Bool.and_eq_true, decide_eq_true_eq] at h ⊢
  omega

end BacklogClaim

def requireActiveClaim (existing : Option BacklogClaim) (input : ClaimInput) (now : Nat)
    (id : String) : Except ProjectOperationsError BacklogClaim :=
  match existing with
  | none => .error ⟨.notClaimHolder, id⟩
  | some claim =>
      if claim.toClaimInput ≠ input then .error ⟨.notClaimHolder, id⟩
      else if claim.expired now then .error ⟨.claimConflict, id⟩
      else .ok claim

/-- The claimant holds an unexpired claim on the item at the time. -/
def BacklogItem.HeldBy (item : BacklogItem) (input : ClaimInput) (now : Nat) : Prop :=
  ∃ claim, item.claim = some claim ∧ claim.toClaimInput = input ∧ claim.expired now = false

theorem BacklogItem.HeldBy.unique {item : BacklogItem} {left right : ClaimInput} {now : Nat}
    (hl : item.HeldBy left now) (hr : item.HeldBy right now) : left = right := by
  obtain ⟨claim, hclaim, rfl, _⟩ := hl
  obtain ⟨other, hother, rfl, _⟩ := hr
  rw [hclaim] at hother
  exact congrArg _ (Option.some.inj hother)

theorem requireActiveClaim_eq_ok {item : BacklogItem} {input : ClaimInput} {now : Nat}
    {id : String} {claim : BacklogClaim}
    (h : requireActiveClaim item.claim input now id = .ok claim) :
    item.claim = some claim ∧ item.HeldBy input now := by
  unfold requireActiveClaim at h
  split at h
  · cases h
  · next held =>
      split_ifs at h with other late
      obtain rfl := Except.ok.inj h
      exact ⟨held, _, held, not_not.mp other, by simpa using late⟩

/-! ## The operations -/

section Operations

variable (leaseMs : Nat)

/-- The end of a lease that starts now; a lease of zero has no end. -/
def leaseEnd (time : Nat) : Nat := if leaseMs = 0 then 0 else time + leaseMs

/-- `create`: a queued item with the projected candidate. -/
def createdItem (id : String) (candidate : BacklogFollowUp) (time : Nat) : BacklogItem where
  id := id
  status := .queued
  candidate := projectBacklogFollowUp candidate
  claim := none
  createdAt := time
  updatedAt := time

/-- `claim`: a queued item, or one whose claim has expired. -/
def claimItem (id : String) (claim : ClaimInput) (time : Nat) (current : BacklogItem) :
    Except ProjectOperationsError BacklogItem :=
  if current.status ≠ .queued ∧ current.claim.any (·.expired time) = false then
    .error ⟨.claimConflict, id⟩
  else .ok { current with
    status := .claimed
    claim := some ⟨claim, time, leaseEnd leaseMs time⟩
    updatedAt := time }

/-- `renew`: the holder's lease starts again. -/
def renewItem (id : String) (claim : ClaimInput) (time : Nat) (current : BacklogItem) :
    Except ProjectOperationsError BacklogItem := do
  let active ← requireActiveClaim current.claim claim time id
  return { current with
    claim := some { active with leaseExpiresAt := leaseEnd leaseMs time }
    updatedAt := time }

/-- `transition`: a declared change of state by the holder. -/
def transitionItem (id : String) (state : BacklogState) (claim : ClaimInput) (time : Nat)
    (current : BacklogItem) : Except ProjectOperationsError BacklogItem := do
  let _ ← requireActiveClaim current.claim claim time id
  require (current.status.transitions.contains state)
    ⟨.invalidTransition, current.status.text ++ ":" ++ state.text⟩
  let keepClaim := state ≠ .queued ∧ state ≠ .done
  return { current with
    status := state
    claim := if keepClaim then current.claim else none
    updatedAt := time }

end Operations

/-- The calls that change an item that exists. -/
inductive BacklogCall where
  | claim (input : ClaimInput)
  | renew (input : ClaimInput)
  | release (input : ClaimInput)
  | transition (state : BacklogState) (input : ClaimInput)
  deriving DecidableEq

namespace BacklogCall

def input : BacklogCall → ClaimInput
  | claim input => input
  | renew input => input
  | release input => input
  | transition _ input => input

/-- The item that a call of the file store writes over the one it read. -/
def decide (leaseMs : Nat) (id : String) (call : BacklogCall) (time : Nat)
    (current : BacklogItem) : Except ProjectOperationsError BacklogItem :=
  match call with
  | claim input => claimItem leaseMs id input time current
  | renew input => renewItem leaseMs id input time current
  | release input => transitionItem id .queued input time current
  | transition state input => transitionItem id state input time current

end BacklogCall

/-! ## What an operation does -/

/-- The claim and the status agree: an item is claimed exactly when it is held. -/
def BacklogItem.Coupled (item : BacklogItem) : Prop :=
  item.claim.isSome = item.status.held

/-- The change of an item by one operation at a time: a first or repeated claim,
a renewal by the holder, or a declared transition by the holder. -/
inductive ItemStep (item : BacklogItem) (input : ClaimInput) (time : Nat) :
    BacklogItem → Prop
  | claim {next : BacklogItem} (status : next.status = .claimed)
      (free : item.status = .queued ∨ ∃ old, item.claim = some old ∧ old.expired time = true)
      (claimed : next.claim.isSome = true) : ItemStep item input time next
  | renew {next : BacklogItem} (status : next.status = item.status)
      (held : item.HeldBy input time) (claimed : next.claim.isSome = true) :
      ItemStep item input time next
  | transition {next : BacklogItem} (declared : next.status ∈ item.status.transitions)
      (held : item.HeldBy input time) (coupled : next.claim.isSome = next.status.held) :
      ItemStep item input time next

section Spec

variable {leaseMs time : Nat} {id : String} {input : ClaimInput} {item next : BacklogItem}
  {state : BacklogState}

theorem claimItem_step (h : claimItem leaseMs id input time item = .ok next) :
    ItemStep item input time next := by
  unfold claimItem at h
  split_ifs at h with refused
  obtain rfl := Except.ok.inj h
  refine .claim rfl ?_ rfl
  by_cases queued : item.status = .queued
  · exact Or.inl queued
  · have late : item.claim.any (·.expired time) = true := by
      simpa [queued] using refused
    obtain ⟨old, hold, expired⟩ := (Option.any_eq_true _ _).mp late
    exact Or.inr ⟨old, hold, expired⟩

theorem renewItem_step (h : renewItem leaseMs id input time item = .ok next) :
    ItemStep item input time next := by
  simp only [renewItem, bind_eq_ok] at h
  obtain ⟨active, hactive, hpure⟩ := h
  obtain rfl := pure_eq_ok.mp hpure
  exact .renew rfl (requireActiveClaim_eq_ok hactive).2 rfl

theorem transitionItem_step (h : transitionItem id state input time item = .ok next) :
    ItemStep item input time next := by
  simp only [transitionItem, bind_eq_ok, require_eq_ok] at h
  obtain ⟨active, hactive, _, declared, hpure⟩ := h
  obtain rfl := pure_eq_ok.mp hpure
  obtain ⟨held, holder⟩ := requireActiveClaim_eq_ok hactive
  refine .transition (by simpa using declared) holder ?_
  cases state <;> simp [BacklogState.held, held]

/-- Every accepted call changes its item by one of the three kinds of change. -/
theorem BacklogCall.decide_step {call : BacklogCall}
    (h : call.decide leaseMs id time item = .ok next) : ItemStep item call.input time next := by
  cases call with
  | claim input => exact claimItem_step h
  | renew input => exact renewItem_step h
  | release input => exact transitionItem_step h
  | transition state input => exact transitionItem_step h

/-- A call keeps the identity and the candidate of its item. -/
theorem BacklogCall.decide_frame {call : BacklogCall}
    (h : call.decide leaseMs id time item = .ok next) :
    next.id = item.id ∧ next.candidate = item.candidate := by
  cases call with
  | claim input =>
      simp only [decide, claimItem] at h
      split_ifs at h
      obtain rfl := Except.ok.inj h
      exact ⟨rfl, rfl⟩
  | renew input =>
      simp only [decide, renewItem, bind_eq_ok] at h
      obtain ⟨_, _, hpure⟩ := h
      obtain rfl := pure_eq_ok.mp hpure
      exact ⟨rfl, rfl⟩
  | release input | transition state input =>
      simp only [decide, transitionItem, bind_eq_ok, require_eq_ok] at h
      obtain ⟨_, _, _, _, hpure⟩ := h
      obtain rfl := pure_eq_ok.mp hpure
      exact ⟨rfl, rfl⟩

/-- Only the holder renews or moves an item. -/
theorem BacklogCall.decide_holder {call : BacklogCall}
    (h : call.decide leaseMs id time item = .ok next) (notClaim : ∀ input, call ≠ .claim input) :
    item.HeldBy call.input time := by
  cases call with
  | claim input => exact absurd rfl (notClaim input)
  | renew input =>
      simp only [decide, renewItem, bind_eq_ok] at h
      obtain ⟨_, hactive, _⟩ := h
      exact (requireActiveClaim_eq_ok hactive).2
  | release input | transition state input =>
      simp only [decide, transitionItem, bind_eq_ok] at h
      obtain ⟨_, hactive, _⟩ := h
      exact (requireActiveClaim_eq_ok hactive).2

namespace ItemStep

theorem coupled (h : ItemStep item input time next) (before : item.Coupled) : next.Coupled := by
  cases h with
  | claim status free claimed => simp [BacklogItem.Coupled, claimed, status, BacklogState.held]
  | renew status held claimed =>
      obtain ⟨claim, hclaim, _⟩ := held
      rw [BacklogItem.Coupled, hclaim, Option.isSome_some] at before
      simp [BacklogItem.Coupled, claimed, status, ← before]
  | transition declared held coupled => exact coupled

/-- A done item that is coupled admits no change. -/
theorem not_done (h : ItemStep item input time next) (before : item.Coupled) :
    item.status ≠ .done := by
  intro done
  have free : item.claim = none := by
    simpa [BacklogItem.Coupled, done, BacklogState.held] using before
  cases h with
  | claim status free' claimed => simp [done, free] at free'
  | renew status held claimed =>
      obtain ⟨claim, hclaim, _⟩ := held
      simp [free] at hclaim
  | transition declared held coupled => simp [done, BacklogState.transitions] at declared

/-- A change of status is declared, or claims an item again after its lease. -/
theorem status (h : ItemStep item input time next) :
    next.status = item.status ∨ next.status ∈ item.status.transitions ∨
      next.status = .claimed ∧ ∃ old, item.claim = some old ∧ old.expired time = true := by
  cases h with
  | claim status free claimed =>
      rcases free with queued | late
      · exact Or.inr (Or.inl (by simp [status, queued, BacklogState.transitions]))
      · exact Or.inr (Or.inr ⟨status, late⟩)
  | renew status held claimed => exact Or.inl status
  | transition declared held coupled => exact Or.inr (Or.inl declared)

end ItemStep

end Spec

end AdCoder.ProjectOperations
