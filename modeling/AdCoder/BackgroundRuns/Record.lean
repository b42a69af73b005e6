import AdCoder.Foundation.JsonReaders
import AdCoder.ProjectOperations.Pauses

/-!
# The durable record of a background run

The record's fields as the writers build them, what `JSON.stringify` makes of
them, and the union of two projections of its wake windows.
-/

namespace AdCoder.BackgroundRuns

open Foundation Orchestration ProjectOperations

/-! ## Lifecycles -/

inductive BackgroundLifecycle where
  | requested
  | started
  | stageChanged
  | paused
  | operatorAttention
  | failed
  | cancelled
  | timedOut
  | completed
  deriving DecidableEq

/-- A lifecycle that must start an orchestrator turn. -/
inductive WakeKind where
  | paused
  | operatorAttention
  | failed
  | timedOut
  | completed
  | stageChanged
  deriving DecidableEq

namespace BackgroundLifecycle

def text : BackgroundLifecycle → String
  | requested => "requested"
  | started => "started"
  | stageChanged => "stage_changed"
  | paused => "paused"
  | operatorAttention => "operator_attention"
  | failed => "failed"
  | cancelled => "cancelled"
  | timedOut => "timed_out"
  | completed => "completed"

/-- `LIFECYCLES`. -/
def all : List BackgroundLifecycle :=
  [requested, started, stageChanged, paused, operatorAttention, failed, cancelled, timedOut,
    completed]

/-- `TERMINAL_LIFECYCLES`. -/
def terminal : List BackgroundLifecycle := [failed, cancelled, timedOut, completed]

def isTerminal (lifecycle : BackgroundLifecycle) : Bool := terminal.contains lifecycle

/-- `WAKE_INITIATING_LIFECYCLES`. -/
def wakeKind? : BackgroundLifecycle → Option WakeKind
  | paused => some .paused
  | operatorAttention => some .operatorAttention
  | failed => some .failed
  | timedOut => some .timedOut
  | completed => some .completed
  | stageChanged => some .stageChanged
  | _ => none

theorem text_injective (x y : BackgroundLifecycle) (h : x.text = y.text) : x = y := by
  cases x <;> cases y <;> first | rfl | exact absurd h (by decide)

theorem mem_all (x : BackgroundLifecycle) : x ∈ all := by
  cases x <;> decide

end BackgroundLifecycle

def WakeKind.text : WakeKind → String
  | paused => "paused"
  | operatorAttention => "operator_attention"
  | failed => "failed"
  | timedOut => "timed_out"
  | completed => "completed"
  | stageChanged => "stage_changed"

def WakeKind.all : List WakeKind :=
  [paused, operatorAttention, failed, timedOut, completed, stageChanged]

theorem WakeKind.text_injective (x y : WakeKind) (h : x.text = y.text) : x = y := by
  cases x <;> cases y <;> first | rfl | exact absurd h (by decide)

theorem WakeKind.mem_all (x : WakeKind) : x ∈ all := by
  cases x <;> decide

/-! ## Fields -/

/-- One coalesced window of one wake kind. -/
structure WakeEntry where
  kind : WakeKind
  firstAt : Nat
  lastAt : Nat
  count : Nat
  handled : Bool
  handledAt : Option Nat
  deriving DecidableEq

structure RunMetrics where
  steps : Nat
  totalCost : JsNumber
  deriving DecidableEq

inductive RunErrorCode where
  | internalFailure
  | operatorAttention
  | deadlineExceeded
  deriving DecidableEq

structure BackgroundRunEvent where
  sequence : Nat
  runId : String
  lifecycle : BackgroundLifecycle
  timestamp : Nat
  stage : Option WorkflowPhase
  pause : Option Pause
  errorCode : Option RunErrorCode
  metrics : Option RunMetrics
  deriving DecidableEq

inductive Recovery where
  | wait
  | inspectEvents
  | resumePipeline
  | none
  deriving DecidableEq

/-- The verdict that an outcome reports, if any review ran. -/
inductive OutcomeVerdict where
  | notRun
  | status (status : VerdictStatus)
  deriving DecidableEq

inductive CeilingSource where
  | operator
  | estimate
  deriving DecidableEq

structure BudgetCloseout where
  ceilingUsd : JsNumber
  ceilingSource : CeilingSource
  spendUsd : JsNumber
  remainderUsd : JsNumber
  providerBillingReported : Bool
  providerBillingUsd : Option JsNumber
  deriving DecidableEq

structure BackgroundTerminalOutcome where
  runId : String
  lifecycle : BackgroundLifecycle
  metrics : RunMetrics
  pause : Option Pause
  recovery : Option Recovery
  recoveryDetail : Option String
  approved : Option Bool
  rounds : Option Nat
  verdict : Option OutcomeVerdict
  budgetCloseout : Option BudgetCloseout
  deriving DecidableEq

structure RunLease where
  workerId : String
  heartbeatAt : Nat
  deriving DecidableEq

structure RunProcessIdentity where
  pid : Nat
  startTime : Option String
  procfsCtimeNs : Option String
  groupId : Option Nat
  deriving DecidableEq

structure PersistedEntry where
  ownerId : String
  runId : String
  lifecycle : BackgroundLifecycle
  events : List BackgroundRunEvent
  nextSequence : Nat
  metrics : RunMetrics
  pause : Option Pause
  lease : Option RunLease
  outcome : Option BackgroundTerminalOutcome
  wake : Option (List WakeEntry)
  process : Option RunProcessIdentity
  deriving DecidableEq

/-! ## Serialisation -/

def WakeEntry.toJson (w : WakeEntry) : Json := .object
  [("kind", some (.str w.kind.text)), ("firstAt", some (.ofNat w.firstAt)),
   ("lastAt", some (.ofNat w.lastAt)), ("count", some (.ofNat w.count)),
   ("handled", some (.bool w.handled)), ("handledAt", w.handledAt.map .ofNat)]

def wakeJson (entries : List WakeEntry) : Json :=
  .object [("entries", some (.arr (entries.map WakeEntry.toJson)))]

def RunMetrics.toJson (metrics : RunMetrics) : Json := .object
  [("steps", some (.ofNat metrics.steps)), ("totalCost", some (.ofNumber metrics.totalCost))]

def causeJson (cause : PipelinePauseCause) : Json := .object
  [("code", some (.str cause.code)), ("message", cause.message.map .str),
   ("recurrence", some (.ofNat cause.recurrence))]

def pauseJson (pause : Pause) : Json := .object
  [("phase", some (.str pause.phase.text)), ("code", some (.str pause.code)),
   ("action", some (.str pause.action)),
   ("limitReason", pause.limitReason.map fun reason => .str reason.text),
   ("limit", pause.limit.map fun limit => .num (.finite limit)),
   ("cause", pause.cause.map causeJson)]

def RunErrorCode.text : RunErrorCode → String
  | internalFailure => "internal_failure"
  | operatorAttention => "operator_attention"
  | deadlineExceeded => "deadline_exceeded"

def BackgroundRunEvent.toJson (event : BackgroundRunEvent) : Json := .object
  [("sequence", some (.ofNat event.sequence)), ("runId", some (.str event.runId)),
   ("lifecycle", some (.str event.lifecycle.text)),
   ("timestamp", some (.ofNat event.timestamp)),
   ("stage", event.stage.map fun stage => .str stage.text),
   ("pause", event.pause.map pauseJson),
   ("errorCode", event.errorCode.map fun code => .str code.text),
   ("metrics", event.metrics.map RunMetrics.toJson)]

def Recovery.text : Recovery → String
  | wait => "wait"
  | inspectEvents => "inspect_events"
  | resumePipeline => "resume_pipeline"
  | none => "none"

def OutcomeVerdict.text : OutcomeVerdict → String
  | notRun => "not_run"
  | status .approved => "approved"
  | status .changesRequested => "changes_requested"
  | status .decompositionRequired => "decomposition_required"

def CeilingSource.text : CeilingSource → String
  | operator => "operator"
  | estimate => "estimate"

def BudgetCloseout.toJson (closeout : BudgetCloseout) : Json := .object
  [("ceilingUsd", some (.ofNumber closeout.ceilingUsd)),
   ("ceilingSource", some (.str closeout.ceilingSource.text)),
   ("spendUsd", some (.ofNumber closeout.spendUsd)),
   ("remainderUsd", some (.ofNumber closeout.remainderUsd)),
   ("providerBillingReported", some (.bool closeout.providerBillingReported)),
   ("providerBillingUsd", closeout.providerBillingUsd.map .ofNumber)]

def BackgroundTerminalOutcome.toJson (outcome : BackgroundTerminalOutcome) : Json := .object
  [("runId", some (.str outcome.runId)), ("lifecycle", some (.str outcome.lifecycle.text)),
   ("metrics", some outcome.metrics.toJson), ("pause", outcome.pause.map pauseJson),
   ("recovery", outcome.recovery.map fun recovery => .str recovery.text),
   ("recoveryDetail", outcome.recoveryDetail.map .str),
   ("approved", outcome.approved.map .bool), ("rounds", outcome.rounds.map .ofNat),
   ("verdict", outcome.verdict.map fun verdict => .str verdict.text),
   ("budgetCloseout", outcome.budgetCloseout.map BudgetCloseout.toJson)]

def RunLease.toJson (lease : RunLease) : Json := .object
  [("workerId", some (.str lease.workerId)), ("heartbeatAt", some (.ofNat lease.heartbeatAt))]

def RunProcessIdentity.toJson (process : RunProcessIdentity) : Json := .object
  [("pid", some (.ofNat process.pid)), ("startTime", process.startTime.map .str),
   ("procfsCtimeNs", process.procfsCtimeNs.map .str),
   ("groupId", process.groupId.map .ofNat)]

def PersistedEntry.toJson (entry : PersistedEntry) : Json := .object
  [("version", some (.ofNat 1)), ("ownerId", some (.str entry.ownerId)),
   ("runId", some (.str entry.runId)), ("lifecycle", some (.str entry.lifecycle.text)),
   ("events", some (.arr (entry.events.map BackgroundRunEvent.toJson))),
   ("nextSequence", some (.ofNat entry.nextSequence)),
   ("metrics", some entry.metrics.toJson), ("pause", entry.pause.map pauseJson),
   ("lease", entry.lease.map RunLease.toJson),
   ("outcome", entry.outcome.map BackgroundTerminalOutcome.toJson),
   ("process", entry.process.map RunProcessIdentity.toJson),
   ("wake", entry.wake.map wakeJson)]

end AdCoder.BackgroundRuns
