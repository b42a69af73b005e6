import AdCoder.Orchestration.Types

/-!
# Workflow state and transitions

The carrier of a stepped run, the accounting of its stages and the one place
where a transition is committed.
-/

namespace AdCoder.Orchestration

inductive WorkflowPhase where
  | plan
  | research
  | security
  | code
  | gates
  | review
  | done
  deriving DecidableEq

namespace WorkflowPhase

def text : WorkflowPhase → String
  | plan => "plan"
  | research => "research"
  | security => "security"
  | code => "code"
  | gates => "gates"
  | review => "review"
  | done => "done"

end WorkflowPhase

structure GateResult where
  name : String
  passed : Bool
  output : String
  deriving DecidableEq

/-- The outcome of the declared gates, in declaration order. -/
structure GateReport where
  results : List GateResult
  deriving DecidableEq

/-- The AND of every result. -/
def GateReport.passed (report : GateReport) : Bool := report.results.all (·.passed)

inductive StageStatus where
  | complete
  | paused
  | closedOut
  deriving DecidableEq

/-- The accounted part of a stage's metrics. -/
structure PipelineStageMetrics where
  stage : String
  status : Option StageStatus
  durationMs : Option Nat
  input : Nat
  cachedInput : Nat
  freshInput : Nat
  output : Nat
  reasoning : Option Nat
  costUsd : Option Rat
  chargedUsd : Option Rat
  deriving DecidableEq

structure StageResumeSnapshot where
  elapsedMs : Nat
  modelTurns : Nat
  toolTurns : Nat
  inputTokens : Nat
  lastInputTokens : Nat
  costUsd : Rat
  deriving DecidableEq

structure ActiveWorkflowStage where
  phase : WorkflowPhase
  step : String
  runId : String
  metrics : Option PipelineStageMetrics
  snapshot : Option StageResumeSnapshot
  deriving DecidableEq

structure StageFailureRecord where
  phase : WorkflowPhase
  code : String
  message : Option String
  recurrence : Nat
  deriving DecidableEq

structure ResearchDispatchIntent where
  effectId : String
  destination : String
  queryHash : String
  surfaceIds : List String
  deriving DecidableEq

inductive EscalationReason where
  | roleRequested
  | blockingVerdicts
  | capExhausted
  deriving DecidableEq

structure EscalationSignal where
  required : Bool
  reason : EscalationReason
  blockingVerdicts : Nat
  deriving DecidableEq

structure WorkflowState where
  phase : WorkflowPhase
  round : Nat
  planSummary : String
  contractRequirements : List String
  surfaceAnalysis : Option SurfaceAnalysis
  affectedFiles : List String
  researchIntent : Option ResearchDispatchIntent
  changeSummary : String
  complexity : Option Complexity
  securitySurface : Option SecuritySurface
  securityNotes : String
  preComplexity : Complexity
  effective : Complexity
  verdicts : List Verdict
  runIds : List String
  stageMetrics : List PipelineStageMetrics
  lastStageFailure : Option StageFailureRecord
  activeStage : Option ActiveWorkflowStage
  lastGateReport : Option GateReport
  done : Bool
  approved : Bool
  escalation : Option EscalationSignal
  deriving DecidableEq

inductive TransitionKind where
  | advance
  | rework
  | stop
  deriving DecidableEq

def TransitionKind.text : TransitionKind → String
  | advance => "advance"
  | rework => "rework"
  | stop => "stop"

structure AvailableTransition where
  kind : TransitionKind
  isDefault : Bool
  toPhase : WorkflowPhase
  toRound : Nat
  deriving DecidableEq

namespace WorkflowState

/-- The last recorded verdict approves. -/
def lastApproved (state : WorkflowState) : Bool :=
  state.verdicts.getLast?.any (·.status = .approved)

/-- The recorded gate report, if there is one, is red. -/
def gatesRed (state : WorkflowState) : Bool :=
  state.lastGateReport.any (!·.passed)

end WorkflowState

/-- Commit one transition. A `stop` settles the run and derives its approval. -/
def applyTransition (state : WorkflowState) (chosen : AvailableTransition) : WorkflowState :=
  if chosen.toPhase = .done then
    { state with
      phase := .done
      done := true
      approved := state.lastApproved && !state.gatesRed }
  else { state with phase := chosen.toPhase, round := chosen.toRound }

section ApplyTransition

variable {state : WorkflowState} {chosen : AvailableTransition}

@[simp] theorem applyTransition_phase : (applyTransition state chosen).phase = chosen.toPhase := by
  unfold applyTransition
  split_ifs with settles <;> simp [settles]

@[simp] theorem applyTransition_verdicts :
    (applyTransition state chosen).verdicts = state.verdicts := by
  unfold applyTransition
  split_ifs <;> rfl

@[simp] theorem applyTransition_lastGateReport :
    (applyTransition state chosen).lastGateReport = state.lastGateReport := by
  unfold applyTransition
  split_ifs <;> rfl

@[simp] theorem applyTransition_gatesRed :
    (applyTransition state chosen).gatesRed = state.gatesRed := by
  simp [WorkflowState.gatesRed]

/-- A committed edge settles the run exactly when it leads to `done`. -/
theorem applyTransition_done (running : state.done = false) :
    (applyTransition state chosen).done = true ↔ chosen.toPhase = .done := by
  unfold applyTransition
  split_ifs with settles <;> simp [settles, running]

/-- Approval is derived on the edge to `done` and nowhere else. -/
theorem applyTransition_approved (running : state.approved = false) :
    (applyTransition state chosen).approved = true ↔
      chosen.toPhase = .done ∧ state.lastApproved = true ∧ state.gatesRed = false := by
  unfold applyTransition
  split_ifs with settles <;> simp [settles, running]

end ApplyTransition

/-- The part of a state that decides how a run goes on and settles. -/
structure Control where
  phase : WorkflowPhase
  round : Nat
  verdicts : List Verdict
  lastGateReport : Option GateReport
  done : Bool
  approved : Bool

def WorkflowState.control (state : WorkflowState) : Control :=
  ⟨state.phase, state.round, state.verdicts, state.lastGateReport, state.done, state.approved⟩

/-! ## Stage accounting -/

/-- The attempt of a stage: the paused one if it is of this stage, else fresh. -/
def stageAttempt (state : WorkflowState) (phase : WorkflowPhase) (step fresh : String) :
    ActiveWorkflowStage × Bool :=
  match state.activeStage with
  | some active =>
      if active.phase = phase ∧ active.step = step then (active, true)
      else (⟨phase, step, fresh, none, none⟩, false)
  | none => (⟨phase, step, fresh, none, none⟩, false)

/-- Metrics of a resumed stage added to those of the attempt before it. -/
def mergeMetrics (prior metrics : PipelineStageMetrics) : PipelineStageMetrics :=
  { metrics with
    durationMs := some (prior.durationMs.getD 0 + metrics.durationMs.getD 0)
    input := prior.input + metrics.input
    cachedInput := prior.cachedInput + metrics.cachedInput
    freshInput := prior.freshInput + metrics.freshInput
    output := prior.output + metrics.output
    reasoning := some (prior.reasoning.getD 0 + metrics.reasoning.getD 0)
    costUsd := some (prior.costUsd.getD 0 + metrics.costUsd.getD 0) }

/-- Record a completed attempt: its run id once, and its merged metrics in place
of the paused ones of the same step. -/
def settledStage (state : WorkflowState) (attempt : ActiveWorkflowStage) (resume : Bool)
    (metrics : PipelineStageMetrics) : WorkflowState :=
  let prior := if resume then attempt.metrics else none
  { state with
    runIds := if attempt.runId ∈ state.runIds then state.runIds
      else state.runIds ++ [attempt.runId]
    stageMetrics := state.stageMetrics.filter (fun metric =>
        !(resume && metric.stage == attempt.step && metric.status == some .paused)) ++
      [(prior.map (mergeMetrics · metrics)).getD metrics] }

/-- Forget the pause and the failure of a stage that has completed. -/
def completeStage (state : WorkflowState) : WorkflowState :=
  { state with activeStage := none, lastStageFailure := none }

/-- Accounting leaves the course of the run alone. -/
@[simp] theorem settledStage_control (state : WorkflowState) (attempt : ActiveWorkflowStage)
    (resume : Bool) (metrics : PipelineStageMetrics) :
    (settledStage state attempt resume metrics).control = state.control := rfl

end AdCoder.Orchestration
