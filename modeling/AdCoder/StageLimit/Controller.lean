import AdCoder.ProjectOperations.Pauses
import Mathlib.Data.Rat.Floor

/-!
# The stage limit controller

A controller admits model turns and tool calls of one stage while no limit is
reached. Reserves keep the last part of a limit for the final answer: inside one
the tools are refused, other than the submission tools. Zero is no limit and no
reserve. An operation reads the clock once.
-/

namespace AdCoder.StageLimit

open Foundation ProjectOperations

/-! ## Limits -/

/-- Limits that `resolveStageLimits` accepts. -/
structure StageLimits where
  maxDurationMs : Nat
  maxModelTurns : Nat
  maxToolTurns : Nat
  maxInputTokens : Nat
  maxCostUsd : Rat
  finalResponseReserveModelTurns : Nat
  finalResponseReserveDurationMs : Nat
  finalResponseReserveToolTurns : Nat
  finalResponseReserveInputTokens : Nat
  cost_nonneg : 0 ≤ maxCostUsd

/-- `DEFAULT_STAGE_LIMITS`. -/
def defaultStageLimits : StageLimits where
  maxDurationMs := 0
  maxModelTurns := 0
  maxToolTurns := 0
  maxInputTokens := 0
  maxCostUsd := 0
  finalResponseReserveModelTurns := 0
  finalResponseReserveDurationMs := 0
  finalResponseReserveToolTurns := 0
  finalResponseReserveInputTokens := 0
  cost_nonneg := Rat.le_refl

/-- `SUBMISSION_TOOL_NAMES`. -/
def submissionToolNames : List String := ["submit_plan", "submit_verdict", "submit_follow_up"]

def isSubmissionToolName (name : String) : Bool := submissionToolNames.contains name

/-! ## Snapshots and errors -/

structure StageLimitSnapshot where
  limits : StageLimits
  elapsedMs : Rat
  modelTurns : Nat
  toolTurns : Nat
  inputTokens : Nat
  lastInputTokens : Nat
  costUsd : Rat
  costInFlight : Bool

structure StageLimitError where
  reason : StageLimitReason
  limit : Rat
  observed : Rat
  snapshot : StageLimitSnapshot

inductive StageCloseoutReason where
  | duration
  | modelTurns
  | toolTurns
  | input
  deriving DecidableEq

/-- A closeout, as it is recorded and as tools are refused with it. -/
structure StageCloseoutError where
  reason : StageCloseoutReason
  detail : String
  deriving DecidableEq

/-- What a tool call is refused with. -/
inductive ToolRefusal where
  | limit (error : StageLimitError)
  | closeout (error : StageCloseoutError)

/-! ## The controller -/

structure StageLimitController where
  limits : StageLimits
  modelTurns : Nat
  toolTurns : Nat
  inputTokens : Nat
  lastInputTokens : Nat
  costUsd : Rat
  costInFlight : Bool
  closeout : Option StageCloseoutError
  terminalReason : Option StageLimitReason
  boundaryFailure : Option StageLimitError

/-- What an earlier controller of the stage has used. -/
structure StageUsed where
  modelTurns : Nat := 0
  toolTurns : Nat := 0
  inputTokens : Nat := 0
  lastInputTokens : Nat := 0
  costUsd : Rat := 0
  deriving DecidableEq

namespace StageLimitController

def create (limits : StageLimits) (used : StageUsed) : StageLimitController where
  limits := limits
  modelTurns := used.modelTurns
  toolTurns := used.toolTurns
  inputTokens := used.inputTokens
  lastInputTokens := used.lastInputTokens
  costUsd := used.costUsd
  costInFlight := false
  closeout := none
  terminalReason := none
  boundaryFailure := none

variable (c : StageLimitController) (elapsedMs : Rat)

def snapshot : StageLimitSnapshot where
  limits := c.limits
  elapsedMs := elapsedMs
  modelTurns := c.modelTurns
  toolTurns := c.toolTurns
  inputTokens := c.inputTokens
  lastInputTokens := c.lastInputTokens
  costUsd := c.costUsd
  costInFlight := c.costInFlight

def assertBelow (reason : StageLimitReason) (limit observed : Rat) :
    Except StageLimitError Unit :=
  if 0 < limit ∧ limit ≤ observed then .error ⟨reason, limit, observed, c.snapshot elapsedMs⟩
  else .ok ()

def assertNotTerminal : Except StageLimitError Unit :=
  match c.terminalReason with
  | some reason => .error ⟨reason, c.limits.maxCostUsd, c.costUsd, c.snapshot elapsedMs⟩
  | none => .ok ()

def assertCostSettled : Except StageLimitError Unit :=
  if 0 < c.limits.maxCostUsd ∧ c.costInFlight then
    .error ⟨.costInFlight, c.limits.maxCostUsd, c.costUsd, c.snapshot elapsedMs⟩
  else .ok ()

def assertActive : Except StageLimitError Unit := do
  c.assertNotTerminal elapsedMs
  c.assertBelow elapsedMs .duration c.limits.maxDurationMs elapsedMs
  c.assertBelow elapsedMs .modelTurns c.limits.maxModelTurns c.modelTurns
  c.assertBelow elapsedMs .toolTurns c.limits.maxToolTurns c.toolTurns
  c.assertBelow elapsedMs .input c.limits.maxInputTokens c.inputTokens
  c.assertBelow elapsedMs .cost c.limits.maxCostUsd c.costUsd
  c.assertCostSettled elapsedMs

def admitModelTurn : Except StageLimitError StageLimitController := do
  c.assertActive elapsedMs
  return { c with
    modelTurns := c.modelTurns + 1
    costInFlight := c.costInFlight || decide (0 < c.limits.maxCostUsd) }

/-- Whether a reserve is entered. -/
def entered (limit reserve : Nat) (observed : Rat) : Bool :=
  0 < limit && 0 < reserve && decide (((limit - reserve : Nat) : Rat) ≤ observed)

/-- The first reserve that is entered, if the next request adds so much input. -/
def detectCloseout (nextRequestInput : Nat) : Option StageCloseoutError :=
  let limits := c.limits
  let elapsed := (elapsedMs + 1 / 2).floor
  if entered limits.maxDurationMs limits.finalResponseReserveDurationMs elapsedMs then
    some ⟨.duration, toString elapsed ++ "/" ++ toString limits.maxDurationMs ++ " ms used, " ++
      toString limits.finalResponseReserveDurationMs ++ " ms reserved"⟩
  else if entered limits.maxModelTurns limits.finalResponseReserveModelTurns c.modelTurns then
    some ⟨.modelTurns, toString c.modelTurns ++ "/" ++ toString limits.maxModelTurns ++
      " model turns used, " ++ toString limits.finalResponseReserveModelTurns ++ " reserved"⟩
  else if entered limits.maxInputTokens limits.finalResponseReserveInputTokens
      (c.inputTokens + nextRequestInput : Nat) then
    some ⟨.input, toString c.inputTokens ++ "/" ++ toString limits.maxInputTokens ++
      " input tokens used, " ++ toString limits.finalResponseReserveInputTokens ++ " reserved"⟩
  else if entered limits.maxToolTurns limits.finalResponseReserveToolTurns c.toolTurns then
    some ⟨.toolTurns, toString c.toolTurns ++ "/" ++ toString limits.maxToolTurns ++
      " tool turns used, " ++ toString limits.finalResponseReserveToolTurns ++ " reserved"⟩
  else none

def countToolTurn : StageLimitController := { c with toolTurns := c.toolTurns + 1 }

/-- The controller afterwards, and what a refused call is refused with. -/
def admitToolTurn (name : Option String) : StageLimitController × Except ToolRefusal Unit :=
  match c.assertActive elapsedMs with
  | .error error => (c, .error (.limit error))
  | .ok _ =>
      match c.detectCloseout elapsedMs 0 with
      | none => (c.countToolTurn, .ok ())
      | some closeout =>
          if c.closeout.isSome ∧ name.any isSubmissionToolName then (c.countToolTurn, .ok ())
          else ({ c with closeout := some closeout }, .error (.closeout closeout))

def observeUsage (inputTokens costUsd : JsNumber) : Except String StageLimitController :=
  match inputTokens, costUsd with
  | .finite tokens, costUsd =>
      if tokens.den = 1 ∧ tokens.num.natAbs ≤ JsNumber.maxSafe ∧ 0 ≤ tokens then
        match costUsd with
        | .finite cost =>
            if 0 ≤ cost then
              let total := c.inputTokens + tokens.num.toNat
              if total ≤ JsNumber.maxSafe then
                .ok { c with
                  inputTokens := total
                  lastInputTokens := tokens.num.toNat
                  costUsd := c.costUsd + cost
                  costInFlight := false }
              else .error "inputTokens total is unsafe"
            else .error "costUsd must be a non-negative finite number"
        | _ => .error "costUsd must be a non-negative finite number"
      else .error "inputTokens must be a non-negative safe integer"
  | _, _ => .error "inputTokens must be a non-negative safe integer"

def failUnknownCost : StageLimitController :=
  if 0 < c.limits.maxCostUsd then
    { c with costInFlight := false, terminalReason := some .costUnknown }
  else c

/-! ## Wrapped models -/

/-- A closeout is recorded once, before the request that is the first inside a reserve. -/
def prepareCloseout : StageLimitController :=
  if c.closeout.isSome then c
  else { c with closeout := c.detectCloseout elapsedMs c.lastInputTokens }

/-- What a generation method of `wrap` does before its request. -/
def request : StageLimitController × Except StageLimitError Unit :=
  match c.admitModelTurn elapsedMs with
  | .error error => ({ c with boundaryFailure := some error }, .error error)
  | .ok admitted => (admitted.prepareCloseout elapsedMs, .ok ())

/-- What it does once the request has settled, with its usage if there is a message. Usage that
cannot be added up leaves the controller as it is. -/
def settle : Option (JsNumber × JsNumber) → StageLimitController
  | none => c.failUnknownCost
  | some (inputTokens, costUsd) =>
      match c.observeUsage inputTokens costUsd with
      | .ok observed => observed
      | .error _ => c

end StageLimitController

/-! ## Projection -/

structure StageBudgetProjection where
  durationMs : Option Rat
  modelTurns : Option Nat
  toolTurns : Option Nat
  inputTokens : Option Nat
  costUsd : Option Rat
  toolTurnsBeforeCloseout : Option Nat

def remaining (limit used : Nat) : Option Nat := if limit = 0 then none else some (limit - used)

def remainingRat (limit used : Rat) : Option Rat :=
  if limit = 0 then none else some (max 0 (limit - used))

def projectRemainingStageBudget (snapshot : StageLimitSnapshot) : StageBudgetProjection where
  durationMs := remainingRat snapshot.limits.maxDurationMs snapshot.elapsedMs
  modelTurns := remaining snapshot.limits.maxModelTurns snapshot.modelTurns
  toolTurns := remaining snapshot.limits.maxToolTurns snapshot.toolTurns
  inputTokens := remaining snapshot.limits.maxInputTokens snapshot.inputTokens
  costUsd := remainingRat snapshot.limits.maxCostUsd snapshot.costUsd
  toolTurnsBeforeCloseout :=
    if snapshot.limits.maxToolTurns = 0 then none
    else some (snapshot.limits.maxToolTurns - snapshot.limits.finalResponseReserveToolTurns -
      snapshot.toolTurns)

end AdCoder.StageLimit
