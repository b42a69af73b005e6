import AdCoder.Foundation.Json
import Mathlib.Algebra.Order.Ring.Unbundled.Rat
import Mathlib.Data.List.Sort

/-!
# The cost anomaly detector

A detector compares what a provider billed with what the declared price list
predicts, for each scope apart. Amounts and ratios are exact.
-/

namespace AdCoder.Economics

open AdCoder.Foundation

structure CostAnomalyConfig where
  enabled : Bool
  thresholdRatio : Rat
  confirmingObservations : Nat
  /-- A single reading never blocks. -/
  confirms : 2 ≤ confirmingObservations
  exceeds : 1 < thresholdRatio

def defaultCostAnomalyConfig : CostAnomalyConfig :=
  { enabled := true
    thresholdRatio := 5 / 4
    confirmingObservations := 2
    confirms := by decide
    exceeds := by decide +kernel }

/-- One settled response. -/
structure CostAnomalyObservation where
  provider : String
  model : String
  chargedUsd : JsNumber
  expectedUsd : JsNumber

structure CostAnomalyBlock where
  /-- When the scope was blocked. -/
  instant : Nat
  chargedUsd : Rat
  expectedUsd : Rat
  ratio : Rat
  acceptedRatio : Rat
  confirmingObservations : Nat
  deriving DecidableEq

structure CostAnomalyScopeState where
  provider : String
  model : String
  observed : List Rat
  pending : List Rat
  pendingChargedUsd : Option Rat
  pendingExpectedUsd : Option Rat
  accepted : Option Rat
  block : Option CostAnomalyBlock
  deriving DecidableEq

structure CostAnomalyBlockedError where
  provider : String
  model : String
  block : CostAnomalyBlock
  deriving DecidableEq

def observedHistory : Nat := 20

def costAnomalyScopeKey (provider model : String) : String := provider ++ "/" ++ model

def median (values : List Rat) : Rat :=
  let sorted := values.insertionSort (· ≤ ·)
  let middle := sorted.length / 2
  if sorted.length % 2 = 1 then sorted.getD middle 0
  else (sorted.getD (middle - 1) 0 + sorted.getD middle 0) / 2

/-- Only the most recent ratios are kept. -/
def trim (state : CostAnomalyScopeState) : CostAnomalyScopeState :=
  { state with observed := state.observed.drop (state.observed.length - observedHistory) }

structure CostAnomalyDetector where
  config : CostAnomalyConfig
  scopes : String → Option CostAnomalyScopeState
  boundaryFailure : Option CostAnomalyBlockedError

namespace CostAnomalyDetector

/-- A detector whose store holds nothing. -/
def fresh (config : CostAnomalyConfig) : CostAnomalyDetector := ⟨config, fun _ => none, none⟩

def setScope (detector : CostAnomalyDetector) (key : String) (state : CostAnomalyScopeState) :
    CostAnomalyDetector :=
  { detector with scopes := Function.update detector.scopes key (some state) }

/-- An error is what `admit` throws. -/
def admitRun (detector : CostAnomalyDetector) (provider model : String) :
    CostAnomalyDetector × Except CostAnomalyBlockedError Unit :=
  let cleared := { detector with boundaryFailure := none }
  if detector.config.enabled then
    match (detector.scopes (costAnomalyScopeKey provider model)).bind (·.block) with
    | none => (cleared, .ok ())
    | some block =>
        ({ detector with boundaryFailure := some ⟨provider, model, block⟩ },
          .error ⟨provider, model, block⟩)
  else (cleared, .ok ())

def assertNoBoundaryFailure (detector : CostAnomalyDetector) :
    CostAnomalyDetector × Except CostAnomalyBlockedError Unit :=
  match detector.boundaryFailure with
  | none => (detector, .ok ())
  | some error => ({ detector with boundaryFailure := none }, .error error)

/-- Money that was really billed or expected. -/
def amount : JsNumber → Option Rat
  | .finite usd => if 0 < usd then some usd else none
  | _ => none

/-- The part of `observe` after its checks, on the scope that the observation is about. -/
def fold (config : CostAnomalyConfig) (now : Nat) (chargedUsd expectedUsd : Rat)
    (state : CostAnomalyScopeState) : CostAnomalyScopeState × Option CostAnomalyBlock :=
  let ratio := chargedUsd / expectedUsd
  if state.block.isSome then (state, none)
  else
    let acceptedRatio := state.accepted.getD 1
    if ratio < acceptedRatio * config.thresholdRatio then
      (trim { state with
        pending := []
        pendingChargedUsd := none
        pendingExpectedUsd := none
        observed := state.observed ++ [ratio] }, none)
    else
      let pending := state.pending ++ [ratio]
      let pendingChargedUsd := state.pendingChargedUsd.getD 0 + chargedUsd
      let pendingExpectedUsd := state.pendingExpectedUsd.getD 0 + expectedUsd
      let counted := { state with
        pending
        pendingChargedUsd := some pendingChargedUsd
        pendingExpectedUsd := some pendingExpectedUsd }
      if pending.length < config.confirmingObservations then (counted, none)
      else
        let block : CostAnomalyBlock := {
          instant := now
          chargedUsd := pendingChargedUsd
          expectedUsd := pendingExpectedUsd
          ratio := median pending
          acceptedRatio
          confirmingObservations := pending.length }
        ({ counted with block := some block }, some block)

/-- Fold one settled response into its scope. -/
def observe (detector : CostAnomalyDetector) (now : Nat) (observation : CostAnomalyObservation) :
    CostAnomalyDetector × Option CostAnomalyBlock :=
  let ⟨provider, model, chargedUsd, expectedUsd⟩ := observation
  if detector.config.enabled then
    match amount chargedUsd, amount expectedUsd with
    | some charged, some expected =>
        let key := costAnomalyScopeKey provider model
        let state := (detector.scopes key).getD ⟨provider, model, [], [], none, none, none, none⟩
        let (state, block) := fold detector.config now charged expected state
        (detector.setScope key state, block)
    | _, _ => (detector, none)
  else (detector, none)

/-- The operator accepts the new price of one scope. -/
def release (detector : CostAnomalyDetector) (provider model : String) :
    CostAnomalyDetector × Option CostAnomalyBlock :=
  let key := costAnomalyScopeKey provider model
  match detector.scopes key with
  | none => (detector, none)
  | some state =>
      match state.block with
      | none => (detector, none)
      | some released =>
          let lifted := trim { state with
            block := none
            accepted := some (max (state.accepted.getD 1) released.ratio)
            observed := state.pending
            pending := []
            pendingChargedUsd := none
            pendingExpectedUsd := none }
          (detector.setScope key lifted, some released)

end CostAnomalyDetector

end AdCoder.Economics
