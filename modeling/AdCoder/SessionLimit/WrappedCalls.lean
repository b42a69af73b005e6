import AdCoder.Foundation.Lists
import AdCoder.SessionLimit.Controller
import Mathlib.Algebra.Order.Ring.Rat

/-!
# Calls behind the session limits

`wrap` reserves before it calls the provider and settles when the call throws,
rejects or resolves. Callers act in any order, and other calls may come while a
provider method still runs.
-/

namespace AdCoder.SessionLimit

open Foundation

/-- The generation methods; a refused promise method rejects, a refused stream method throws. -/
inductive Method where
  | complete
  | completeSimple
  | fetchDeferred
  | stream
  | streamSimple
  | streamDeferred
  deriving DecidableEq

/-- The provider's method runs, or what it returned has not settled. -/
inductive CallPhase where
  | applying
  | pending
  deriving DecidableEq

/-- What happened to a call: it was admitted at an observed cost, or settled with its valid cost,
if it had one. -/
inductive Entry where
  | admitted (observed : Rat)
  | settled (cost : Option Rat)
  deriving DecidableEq

/-- The controller, the calls in flight, and a journal that no code reads. -/
structure Session where
  controller : Controller
  calls : Nat → Option (Method × CallPhase)
  journal : List Entry

inductive Act where
  | invoke (call : Nat) (method : Method)
  | throws (call : Nat)
  | returns (call : Nat)
  | resolves (call : Nat) (message : AssistantMessage)
  | rejects (call : Nat)

namespace Session

def start (limits : SessionLimits) : Session := ⟨.fresh limits, fun _ => none, []⟩

def setCall (session : Session) (call : Nat) (next : Option (Method × CallPhase)) : Session :=
  { session with calls := Function.update session.calls call next }

/-- An admitted call. -/
def admitCall (session : Session) (call : Nat) (method : Method) (controller : Controller) : Session :=
  { (session.setCall call (some (method, .applying))) with
    controller := controller
    journal := session.journal ++ [.admitted session.controller.observedCostUsd] }

/-- A call that ended, with its message if it has one. -/
def settle (session : Session) (call : Nat) (message : Option AssistantMessage) : Session :=
  { (session.setCall call none) with
    controller := session.controller.settle message
    journal := session.journal ++ [.settled (Controller.validCost (message.bind (·.total)))] }

def step (session : Session) : Act → Session
  | .invoke call method =>
      if (session.calls call).isSome then session
      else match session.controller.reserve with
        | (controller, .error _) => { session with controller := controller }
        | (controller, .ok _) => session.admitCall call method controller
  | .throws call =>
      match session.calls call with
      | some (_, .applying) => session.settle call none
      | _ => session
  | .returns call =>
      match session.calls call with
      | some (method, .applying) => session.setCall call (some (method, .pending))
      | _ => session
  | .resolves call message =>
      match session.calls call with
      | some (_, .pending) => session.settle call (some message)
      | _ => session
  | .rejects call =>
      match session.calls call with
      | some (_, .pending) => session.settle call none
      | _ => session

abbrev Steps (session : Session) (act : Act) (next : Session) : Prop := next = session.step act

end Session

/-! ## What an act does -/

/-- An act moves nothing that counts, admits a call or settles one. -/
inductive Moved (s : Session) : Session → Prop
  | idle {t : Session} (failure : Option SessionLimitError)
      (controller : t.controller = { s.controller with boundaryFailure := failure })
      (calls : ∀ call, (t.calls call).isSome = (s.calls call).isSome)
      (journal : t.journal = s.journal) : Moved s t
  | admits (call : Nat) (method : Method) (idle : s.calls call = none)
      (active : s.controller.currentError = none) : Moved s (s.admitCall call method
        { s.controller with
          admittedTurns := s.controller.admittedTurns + 1
          costInFlight := s.controller.costInFlight ||
            decide (0 < s.controller.limits.maxCostUsd) })
  | settles (call : Nat) (message : Option AssistantMessage)
      (found : (s.calls call).isSome = true) : Moved s (s.settle call message)

section Steps

variable {s : Session}

theorem Moved.same : Moved s s := .idle s.controller.boundaryFailure rfl (fun _ => rfl) rfl

theorem Moved.of_step (act : Act) : Moved s (s.step act) := by
  cases act with
  | invoke call method =>
      simp only [Session.step]
      split_ifs with busy
      · exact .same
      · cases refused : s.controller.currentError with
        | some error =>
            simp only [Controller.reserve, Controller.assertActive, refused]
            exact .idle (some error) rfl (fun _ => rfl) rfl
        | none =>
            simp only [Controller.reserve, Controller.assertActive, refused]
            exact .admits call method (by simpa using busy) refused
  | throws call =>
      simp only [Session.step]
      split
      · next found => exact .settles call none (by rw [found]; rfl)
      · exact .same
  | returns call =>
      simp only [Session.step]
      split
      · next found =>
          refine .idle s.controller.boundaryFailure rfl (fun other => ?_) rfl
          by_cases same : other = call
          · subst same
            simp [Session.setCall, found]
          · simp [Session.setCall, Function.update_of_ne same]
      · exact .same
  | resolves call message =>
      simp only [Session.step]
      split
      · next found => exact .settles call (some message) (by rw [found]; rfl)
      · exact .same
  | rejects call =>
      simp only [Session.step]
      split
      · next found => exact .settles call none (by rw [found]; rfl)
      · exact .same

/-- An admission finds every limit open. -/
theorem active_cases {controller : Controller} (active : controller.currentError = none) :
    controller.terminalReason = none ∧
      (0 < controller.limits.maxTurns → controller.admittedTurns < controller.limits.maxTurns) ∧
      (0 < controller.limits.maxCostUsd →
        controller.observedCostUsd < controller.limits.maxCostUsd ∧
          controller.costInFlight = false) := by
  cases terminal : controller.terminalReason with
  | some reason => rw [currentError_of_terminal controller terminal] at active; cases active
  | none =>
      simp only [Controller.currentError, terminal] at active
      split_ifs at active with turns cost flight
      refine ⟨rfl, fun limited => ?_, fun limited => ⟨?_, ?_⟩⟩
      · by_contra full
        exact turns ⟨limited, Nat.le_of_not_lt full⟩
      · by_contra full
        exact cost ⟨limited, not_lt.mp full⟩
      · by_contra flying
        exact flight ⟨limited, by simpa using flying⟩

@[simp] theorem settle_limits (controller : Controller) (message : Option AssistantMessage) :
    (controller.settle message).limits = controller.limits := by
  rw [Controller.settle]
  split_ifs
  · rfl
  · split <;> rfl

@[simp] theorem settle_admittedTurns (controller : Controller)
    (message : Option AssistantMessage) :
    (controller.settle message).admittedTurns = controller.admittedTurns := by
  rw [Controller.settle]
  split_ifs
  · rfl
  · split <;> rfl

end Steps

/-! ## The turns -/

def admissions (journal : List Entry) : Nat :=
  journal.countP fun | .admitted _ => true | .settled _ => false

structure TurnsCounted (limits : SessionLimits) (s : Session) : Prop where
  configured : s.controller.limits = limits
  counted : admissions s.journal = s.controller.admittedTurns
  bounded : 0 < limits.maxTurns → s.controller.admittedTurns ≤ limits.maxTurns

section Turns

variable {limits : SessionLimits} {s t : Session}

theorem TurnsCounted.start : TurnsCounted limits (.start limits) :=
  ⟨rfl, rfl, fun _ => Nat.zero_le _⟩

theorem TurnsCounted.moved (h : TurnsCounted limits s) (moved : Moved s t) :
    TurnsCounted limits t := by
  cases moved with
  | idle failure controller calls journal =>
      refine ⟨?_, ?_, ?_⟩
      · rw [controller]
        exact h.configured
      · rw [controller, journal]
        exact h.counted
      · rw [controller]
        exact h.bounded
  | admits call method idle active =>
      refine ⟨h.configured, ?_, fun limited => ?_⟩
      · have counted := h.counted
        simp only [admissions, Session.admitCall, List.countP_append, List.countP_singleton, if_true]
          at counted ⊢
        rw [counted]
      · have room := (active_cases active).2.1
        rw [h.configured] at room
        exact room limited
  | settles call message found =>
      refine ⟨?_, ?_, fun limited => ?_⟩
      · simpa [Session.settle] using h.configured
      · simpa [admissions, Session.settle] using h.counted
      · simpa [Session.settle] using h.bounded limited

end Turns

/-! ## The cost -/

/-- Every admission is made below the limit, first or right after a valid cost, and after no
unknown one. -/
def Orderly (maxCostUsd : Rat) (journal : List Entry) : Prop :=
  ∀ before observed after, journal = before ++ .admitted observed :: after →
    observed < maxCostUsd ∧ .settled none ∉ before ∧
      (before = [] ∨ ∃ earlier cost, before = earlier ++ [.settled (some cost)])

/-- The observed cost is over the limit by one valid cost at most. -/
def Overshoots (maxCostUsd observed : Rat) (journal : List Entry) : Prop :=
  observed < maxCostUsd ∨
    ∃ cost, .settled (some cost) ∈ journal ∧ observed < maxCostUsd + cost

/-- What holds of a session with a cost limit. -/
structure CostBounded (limits : SessionLimits) (s : Session) : Prop where
  configured : s.controller.limits = limits
  alone : ∀ a b, (s.calls a).isSome = true → (s.calls b).isSome = true → a = b
  flight : s.controller.costInFlight = true ↔ ∃ call, (s.calls call).isSome = true
  orderly : Orderly limits.maxCostUsd s.journal
  settled : s.controller.costInFlight = false → s.controller.terminalReason = none →
    s.journal = [] ∨ ∃ before cost, s.journal = before ++ [.settled (some cost)]
  known : s.controller.terminalReason = none → .settled none ∉ s.journal
  below : s.controller.costInFlight = true → s.controller.observedCostUsd < limits.maxCostUsd
  overshoots : Overshoots limits.maxCostUsd s.controller.observedCostUsd s.journal

section Cost

variable {limits : SessionLimits} {s t : Session} {journal : List Entry} {maxCostUsd observed : Rat}

theorem Orderly.admitted (h : Orderly maxCostUsd journal) (below : observed < maxCostUsd)
    (known : .settled none ∉ journal)
    (last : journal = [] ∨ ∃ before cost, journal = before ++ [.settled (some cost)]) :
    Orderly maxCostUsd (journal ++ [.admitted observed]) := by
  intro before other after split
  rcases split_concat split with ⟨rfl, rfl, same⟩ | ⟨rest, rfl, rfl⟩
  · obtain rfl := Entry.admitted.inj same
    exact ⟨below, known, last⟩
  · exact h before other rest rfl

theorem Orderly.settled (h : Orderly maxCostUsd journal) (cost : Option Rat) :
    Orderly maxCostUsd (journal ++ [.settled cost]) := by
  intro before other after split
  rcases split_concat split with ⟨rfl, rfl, same⟩ | ⟨rest, rfl, rfl⟩
  · cases same
  · exact h before other rest rfl

theorem Overshoots.append (h : Overshoots maxCostUsd observed journal) (entry : Entry) :
    Overshoots maxCostUsd observed (journal ++ [entry]) := by
  rcases h with below | ⟨cost, member, within⟩
  · exact .inl below
  · exact .inr ⟨cost, List.mem_append_left _ member, within⟩

theorem settle_unknown {controller : Controller} {message : Option AssistantMessage}
    (limited : 0 < controller.limits.maxCostUsd)
    (unknown : Controller.validCost (message.bind (·.total)) = none) :
    controller.settle message =
      { controller with
        costInFlight := false
        terminalReason := some .costUnknown } := by
  rw [Controller.settle, if_neg limited.ne', unknown]

theorem settle_valid {controller : Controller} {message : Option AssistantMessage} {cost : Rat}
    (limited : 0 < controller.limits.maxCostUsd)
    (valid : Controller.validCost (message.bind (·.total)) = some cost) :
    controller.settle message =
      { controller with
        costInFlight := false
        observedCostUsd := controller.observedCostUsd + cost } := by
  rw [Controller.settle, if_neg limited.ne', valid]

theorem CostBounded.start (limited : 0 < limits.maxCostUsd) :
    CostBounded limits (.start limits) where
  configured := rfl
  alone _ _ first := by cases first
  flight := by simp [Session.start, Controller.fresh]
  orderly before _ _ split := by cases before <;> cases split
  settled _ _ := .inl rfl
  known _ member := by cases member
  below flying := by cases flying
  overshoots := .inl limited

/-- Nothing flies once the call that flew has settled. -/
theorem CostBounded.landed (h : CostBounded limits s) {call : Nat} {message : Option AssistantMessage}
    (found : (s.calls call).isSome = true) (other : Nat) :
    ((s.settle call message).calls other).isSome = false := by
  by_cases same : other = call
  · subst same
    simp [Session.settle, Session.setCall]
  · have gone : (s.calls other).isSome = false := by
      by_contra flying
      exact same (h.alone other call (Bool.not_eq_false _ |>.mp flying) found)
    simpa [Session.settle, Session.setCall, Function.update_of_ne same] using gone

theorem CostBounded.admitCall (h : CostBounded limits s) (limited : 0 < limits.maxCostUsd) {call : Nat}
    {method : Method} (active : s.controller.currentError = none) :
    CostBounded limits (s.admitCall call method
      { s.controller with
        admittedTurns := s.controller.admittedTurns + 1
        costInFlight := s.controller.costInFlight ||
          decide (0 < s.controller.limits.maxCostUsd) }) := by
  obtain ⟨terminal, -, cost⟩ := active_cases active
  rw [h.configured] at cost
  obtain ⟨below, grounded⟩ := cost limited
  have alone : ∀ other, (s.calls other).isSome = false := by
    intro other
    by_contra flying
    have inFlight := h.flight.mpr ⟨other, Bool.not_eq_false _ |>.mp flying⟩
    rw [grounded] at inFlight
    cases inFlight
  have called : ∀ other, ((s.setCall call (some (method, .applying))).calls other).isSome = true →
      other = call := by
    intro other flying
    by_contra ne
    simp [Session.setCall, Function.update_of_ne ne, alone other] at flying
  refine ⟨h.configured, ?_, ?_, ?_, ?_, ?_, fun _ => below, h.overshoots.append _⟩
  · intro a b first second
    exact (called a first).trans (called b second).symm
  · refine ⟨fun _ => ⟨call, by simp [Session.admitCall, Session.setCall]⟩, fun _ => ?_⟩
    simp [Session.admitCall, h.configured, limited]
  · exact h.orderly.admitted below (h.known terminal) (h.settled grounded terminal)
  · intro landed
    simp [Session.admitCall, h.configured, limited] at landed
  · intro _ member
    rcases List.mem_append.mp member with before | here
    · exact h.known terminal before
    · cases List.mem_singleton.mp here

theorem CostBounded.settle (h : CostBounded limits s) (limited : 0 < limits.maxCostUsd) {call : Nat}
    {message : Option AssistantMessage} (found : (s.calls call).isSome = true) :
    CostBounded limits (s.settle call message) := by
  have open' : 0 < s.controller.limits.maxCostUsd := by rw [h.configured]; exact limited
  have landed : ∀ other, ((s.settle call message).calls other).isSome = false := h.landed found
  have below := h.below (h.flight.mpr ⟨call, found⟩)
  have nobody : ¬ ∃ other, ((s.settle call message).calls other).isSome = true := by
    rintro ⟨other, flying⟩
    rw [landed other] at flying
    cases flying
  have alone : ∀ a b, ((s.settle call message).calls a).isSome = true →
      ((s.settle call message).calls b).isSome = true → a = b :=
    fun a _ first _ => absurd ⟨a, first⟩ nobody
  cases reported : Controller.validCost (message.bind (·.total)) with
  | none =>
      have settled : (s.settle call message).controller =
          { s.controller with
            costInFlight := false
            terminalReason := some .costUnknown } := settle_unknown open' reported
      have journal : (s.settle call message).journal = s.journal ++ [.settled none] := by
        rw [Session.settle, reported]
      refine ⟨?_, alone, ?_, ?_, ?_, ?_, ?_, ?_⟩
      · rw [settled]; exact h.configured
      · rw [settled]; exact iff_of_false Bool.false_ne_true nobody
      · rw [journal]; exact h.orderly.settled _
      · rw [settled]; intro _ none; cases none
      · rw [settled]; intro none; cases none
      · rw [settled]; intro flying; cases flying
      · rw [settled, journal]; exact h.overshoots.append _
  | some cost =>
      have settled : (s.settle call message).controller =
          { s.controller with
            costInFlight := false
            observedCostUsd := s.controller.observedCostUsd + cost } := settle_valid open' reported
      have journal : (s.settle call message).journal = s.journal ++ [.settled (some cost)] := by
        rw [Session.settle, reported]
      refine ⟨?_, alone, ?_, ?_, ?_, ?_, ?_, ?_⟩
      · rw [settled]; exact h.configured
      · rw [settled]; exact iff_of_false Bool.false_ne_true nobody
      · rw [journal]; exact h.orderly.settled _
      · rw [journal]; exact fun _ _ => .inr ⟨_, cost, rfl⟩
      · rw [settled, journal]
        intro terminal member
        rcases List.mem_append.mp member with before | here
        · exact h.known terminal before
        · cases List.mem_singleton.mp here
      · rw [settled]; intro flying; cases flying
      · rw [settled, journal]
        exact .inr ⟨cost, by simp, (add_lt_add_iff_right cost).mpr below⟩

theorem CostBounded.moved (h : CostBounded limits s) (limited : 0 < limits.maxCostUsd)
    (moved : Moved s t) : CostBounded limits t := by
  cases moved with
  | idle failure controller calls journal =>
      refine ⟨?_, ?_, ?_, ?_, ?_, ?_, ?_, ?_⟩
      · rw [controller]; exact h.configured
      · simp only [calls]; exact h.alone
      · rw [controller]; simp only [calls]; exact h.flight
      · rw [journal]; exact h.orderly
      · rw [controller, journal]; exact h.settled
      · rw [controller, journal]; exact h.known
      · rw [controller]; exact h.below
      · rw [controller, journal]; exact h.overshoots
  | admits call method idle active => exact h.admitCall limited active
  | settles call message found => exact h.settle limited found

end Cost

/-! ## Whole runs -/

section Runs

variable {limits : SessionLimits} {s : Session} {acts : List Act}

theorem turnsCounted_of_run (run : Run Session.Steps (.start limits) acts s) :
    TurnsCounted limits s := by
  refine run.invariant ?_ .start
  rintro before act after counted rfl
  exact counted.moved (.of_step act)

theorem costBounded_of_run (limited : 0 < limits.maxCostUsd)
    (run : Run Session.Steps (.start limits) acts s) : CostBounded limits s := by
  refine run.invariant ?_ (.start limited)
  rintro before act after bounded rfl
  exact bounded.moved limited (.of_step act)

/-- Two calls, the second while the first is in flight and again once it has settled. -/
def overlappingScript : List Act :=
  [.invoke 0 .complete, .invoke 1 .stream, .returns 0, .resolves 0 ⟨some (.finite 2)⟩,
    .invoke 1 .stream]

end Runs

end AdCoder.SessionLimit
