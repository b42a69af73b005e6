import AdCoder.Foundation.Json
import AdCoder.Foundation.Runs

/-!
# The session limit controller

A controller admits provider calls while neither the turns nor the observed cost
of a session have reached their limit. Its snapshot is what a later process
restores.
-/

namespace AdCoder.SessionLimit

open Foundation

inductive SessionLimitReason where
  | turns
  | cost
  | costInFlight
  | costUnknown
  deriving DecidableEq

/-- The limits of a controller; zero is no limit. -/
structure SessionLimits where
  maxTurns : Nat
  maxCostUsd : Rat
  nonneg : 0 ≤ maxCostUsd

instance : DecidableEq SessionLimits := fun a b =>
  decidable_of_iff (a.maxTurns = b.maxTurns ∧ a.maxCostUsd = b.maxCostUsd) (by
    obtain ⟨turns, cost, nonneg⟩ := a
    obtain ⟨turns', cost', nonneg'⟩ := b
    simp)

structure SessionLimitError where
  reason : SessionLimitReason
  limit : Rat
  observed : Rat
  deriving DecidableEq

structure SessionLimitSnapshot where
  maxTurns : Nat
  maxCostUsd : Rat
  admittedTurns : Nat
  observedCostUsd : Rat
  costInFlight : Bool
  terminalReason : Option SessionLimitReason
  deriving DecidableEq

structure Controller where
  limits : SessionLimits
  admittedTurns : Nat
  observedCostUsd : Rat
  costInFlight : Bool
  terminalReason : Option SessionLimitReason
  boundaryFailure : Option SessionLimitError
  deriving DecidableEq

/-- What a settled message says of its cost; a total that is not a number is absent. -/
structure AssistantMessage where
  total : Option JsNumber

namespace Controller

def fresh (limits : SessionLimits) : Controller := ⟨limits, 0, 0, false, none, none⟩

variable (controller : Controller)

def currentError : Option SessionLimitError :=
  let limits := controller.limits
  match controller.terminalReason with
  | some reason => some ⟨reason, limits.maxCostUsd, controller.observedCostUsd⟩
  | none =>
      if 0 < limits.maxTurns ∧ limits.maxTurns ≤ controller.admittedTurns then
        some ⟨.turns, limits.maxTurns, controller.admittedTurns⟩
      else if 0 < limits.maxCostUsd ∧ limits.maxCostUsd ≤ controller.observedCostUsd then
        some ⟨.cost, limits.maxCostUsd, controller.observedCostUsd⟩
      else if 0 < limits.maxCostUsd ∧ controller.costInFlight then
        some ⟨.costInFlight, limits.maxCostUsd, controller.observedCostUsd⟩
      else none

/-- A used controller is left as it is. -/
def restore (snapshot : SessionLimitSnapshot) : Except String Controller :=
  if controller.admittedTurns ≠ 0 ∨ controller.observedCostUsd ≠ 0 ∨ controller.costInFlight then
    .ok controller
  else if snapshot.maxTurns ≠ controller.limits.maxTurns ∨
      snapshot.maxCostUsd ≠ controller.limits.maxCostUsd then
    .error "restored session limits do not match configured limits"
  else
    .ok { controller with
      admittedTurns := snapshot.admittedTurns
      observedCostUsd := snapshot.observedCostUsd
      costInFlight := snapshot.costInFlight
      terminalReason := snapshot.terminalReason }

def snapshot : SessionLimitSnapshot :=
  { maxTurns := controller.limits.maxTurns
    maxCostUsd := controller.limits.maxCostUsd
    admittedTurns := controller.admittedTurns
    observedCostUsd := controller.observedCostUsd
    costInFlight := controller.costInFlight
    terminalReason := controller.currentError.map (·.reason) }

def assertActive : Except SessionLimitError Unit :=
  match controller.currentError with
  | some error => .error error
  | none => .ok ()

/-- The controller afterwards, and what was thrown. -/
def reserve : Controller × Except SessionLimitError Unit :=
  match controller.assertActive with
  | .error error => ({ controller with boundaryFailure := some error }, .error error)
  | .ok _ =>
      ({ controller with
          admittedTurns := controller.admittedTurns + 1
          costInFlight := controller.costInFlight || decide (0 < controller.limits.maxCostUsd) },
        .ok ())

/-- A cost that can be added up. -/
def validCost : Option JsNumber → Option Rat
  | some (.finite cost) => if cost < 0 then none else some cost
  | _ => none

def settle (message : Option AssistantMessage) : Controller :=
  if controller.limits.maxCostUsd = 0 then controller
  else
    let settled := { controller with costInFlight := false }
    match validCost (message.bind (·.total)) with
    | none => { settled with terminalReason := some .costUnknown }
    | some cost => { settled with observedCostUsd := controller.observedCostUsd + cost }

end Controller

/-! ## Refusals after a restart -/

section Restart

variable (controller : Controller)

/-- A fresh controller with the same limits that restored the snapshot. -/
def Controller.restarted : Except String Controller :=
  (Controller.fresh controller.limits).restore controller.snapshot

theorem restarted_eq : controller.restarted = .ok { Controller.fresh controller.limits with
    admittedTurns := controller.admittedTurns
    observedCostUsd := controller.observedCostUsd
    costInFlight := controller.costInFlight
    terminalReason := controller.currentError.map (·.reason) } := by
  simp [Controller.restarted, Controller.restore, Controller.fresh, Controller.snapshot]

/-- The refusals of two controllers are the same. -/
structure RefusesAlike (a b : Controller) : Prop where
  active : a.assertActive = b.assertActive
  reserve : a.reserve.2 = b.reserve.2

theorem refusesAlike_iff {a b : Controller} :
    RefusesAlike a b ↔ a.currentError = b.currentError := by
  constructor
  · intro alike
    have active := alike.active
    cases first : a.currentError <;> cases second : b.currentError <;>
      simp_all [Controller.assertActive]
  · intro same
    have active : a.assertActive = b.assertActive := by
      rw [Controller.assertActive, Controller.assertActive, same]
    refine ⟨active, ?_⟩
    rw [Controller.reserve, Controller.reserve, active]
    cases b.assertActive <;> rfl

/-- The turn limit is reached, and the controller was not restored refusing. -/
def Controller.turnsReached : Prop :=
  controller.terminalReason = none ∧ 0 < controller.limits.maxTurns ∧
    controller.limits.maxTurns ≤ controller.admittedTurns

instance : Decidable controller.turnsReached := inferInstanceAs (Decidable (_ ∧ _ ∧ _))

/-- The error that a stored reason is read as. -/
theorem currentError_of_terminal {reason : SessionLimitReason}
    (terminal : controller.terminalReason = some reason) :
    controller.currentError =
      some ⟨reason, controller.limits.maxCostUsd, controller.observedCostUsd⟩ := by
  rw [Controller.currentError, terminal]

theorem currentError_of_turns (reached : controller.turnsReached) :
    controller.currentError =
      some ⟨.turns, controller.limits.maxTurns, controller.admittedTurns⟩ := by
  obtain ⟨none, turns⟩ := reached
  rw [Controller.currentError, none]
  exact if_pos turns

/-- Apart from the turn limit every refusal names the cost limit and the observed cost. -/
theorem currentError_cost {error : SessionLimitError} (unreached : ¬ controller.turnsReached)
    (refused : controller.currentError = some error) :
    error = ⟨error.reason, controller.limits.maxCostUsd, controller.observedCostUsd⟩ := by
  cases terminal : controller.terminalReason with
  | some reason =>
      rw [currentError_of_terminal controller terminal, Option.some.injEq] at refused
      rw [← refused]
  | none =>
      have turns : ¬ (0 < controller.limits.maxTurns ∧
          controller.limits.maxTurns ≤ controller.admittedTurns) := fun turns =>
        unreached ⟨terminal, turns⟩
      simp only [Controller.currentError, terminal, if_neg turns] at refused
      split_ifs at refused <;>
      · rw [Option.some.injEq] at refused
        rw [← refused]

/-- What the restarted controller refuses with. -/
theorem restarted_currentError {restarted : Controller}
    (restored : controller.restarted = .ok restarted) :
    restarted.currentError = controller.currentError.map fun error =>
      ⟨error.reason, controller.limits.maxCostUsd, controller.observedCostUsd⟩ := by
  rw [restarted_eq, Except.ok.injEq] at restored
  subst restored
  cases refused : controller.currentError with
  | some error => exact currentError_of_terminal _ rfl
  | none =>
      have terminal : controller.terminalReason = none := by
        cases held : controller.terminalReason with
        | none => rfl
        | some reason => rw [currentError_of_terminal controller held] at refused; cases refused
      simp only [Controller.currentError, terminal] at refused
      exact refused

/-- The snapshot of a restarted controller is the one that it restored. -/
theorem restarted_snapshot {restarted : Controller}
    (restored : controller.restarted = .ok restarted) :
    restarted.snapshot = controller.snapshot := by
  have refused := restarted_currentError controller restored
  rw [restarted_eq, Except.ok.injEq] at restored
  subst restored
  simp only [Controller.snapshot, refused, Option.map_map, Function.comp_def]
  rfl

/-- A restart keeps the refusals and the snapshot of every controller that does not refuse for its
turns, and of one that does only if its limits and what they count coincide. -/
theorem restart_refuses_alike_iff :
    (∃ restarted, controller.restarted = .ok restarted ∧ RefusesAlike restarted controller ∧
      restarted.snapshot = controller.snapshot) ↔
    (controller.turnsReached → (controller.limits.maxTurns : Rat) = controller.limits.maxCostUsd ∧
      (controller.admittedTurns : Rat) = controller.observedCostUsd) := by
  constructor
  · rintro ⟨restarted, restored, alike, -⟩ reached
    have same := refusesAlike_iff.mp alike
    rw [restarted_currentError controller restored, currentError_of_turns controller reached] at same
    simp only [Option.map_some, Option.some.injEq, SessionLimitError.mk.injEq, true_and] at same
    exact ⟨same.1.symm, same.2.symm⟩
  · intro coincide
    have restored := restarted_eq controller
    refine ⟨_, restored, refusesAlike_iff.mpr ?_, restarted_snapshot controller restored⟩
    rw [restarted_currentError controller restored]
    by_cases reached : controller.turnsReached
    · obtain ⟨limit, observed⟩ := coincide reached
      rw [currentError_of_turns controller reached, Option.map_some, limit, observed]
    · cases refused : controller.currentError with
      | none => rfl
      | some error =>
          rw [Option.map_some, ← currentError_cost controller reached refused]

/-- After its one turn a session refuses with the turn limit, and its restart with other numbers. -/
theorem turn_refusal_not_restored :
    let used := (Controller.fresh ⟨1, 0, Rat.le_refl⟩).reserve.1
    used.assertActive = .error ⟨.turns, 1, 1⟩ ∧
      ∃ restarted, used.restarted = .ok restarted ∧
        restarted.assertActive = .error ⟨.turns, 0, 0⟩ ∧ ¬ RefusesAlike restarted used := by
  have first : ((Controller.fresh ⟨1, 0, Rat.le_refl⟩).reserve.1).assertActive =
      .error ⟨.turns, 1, 1⟩ := by decide +kernel
  refine ⟨first, _, restarted_eq _, by decide +kernel, fun alike => ?_⟩
  have same := alike.active
  rw [first] at same
  revert same
  decide +kernel

end Restart

end AdCoder.SessionLimit
