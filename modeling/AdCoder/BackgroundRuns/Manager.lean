import AdCoder.BackgroundRuns.Reader
import AdCoder.BackgroundRuns.Wakes

/-!
# Managers of a background run

Every process that knows a run holds its own copy of the record. A method reads
the record only where the source does, works on the copy, and writes the copy as
a whole; the store's read-modify-write unites the wake windows and keeps a
process identity, and nothing else. Between two accesses of one method any other
process may act. The managers here are those of the record's owner.
-/

namespace AdCoder.BackgroundRuns

open Foundation Orchestration ProjectOperations

/-! ## Limits and inputs -/

/-- The limits that decide what is recorded, and the host's addition of costs. -/
structure BackgroundRunConfig where
  ownerId : String
  runId : String
  maxEventsPerRun : Nat
  maxRunMs : Nat
  leaseMs : Nat
  maxWakeEntriesPerRun : Nat
  wakeKinds : Option (List WakeKind)
  addCost : JsNumber → JsNumber → JsNumber

structure StepCost where
  phase : WorkflowPhase
  cost : JsNumber

/-- What the record takes from a settled pipeline. -/
structure RunPipelineResult where
  perStep : List StepCost
  totalCost : JsNumber
  approved : Bool
  rounds : Nat
  lastVerdict : Option VerdictStatus
  budgetCloseout : Option BudgetCloseout

/-- `RESUME_PIPELINE_DETAIL`. -/
def resumePipelineDetail : String :=
  "open `ad-coder console --target-dir <dir>` and ask the orchestrator to resume this run id " ++
  "with resume_pipeline, raising the exhausted ceiling; `background` has no resume action and " ++
  "`control resume` does not read background runs"

/-- `CLAIM_DEADLINE_DETAIL`. -/
def claimDeadlineDetail : String :=
  "the detached worker never claimed this run: the durable record stayed lifecycle requested " ++
  "with no claim inside the claim window, so nothing will ever advance it; start the task again " ++
  "with a new background start -- there is no checkpoint to resume"

/-! ## The copy in memory -/

/-- Where the promise of a launched run has got. -/
inductive Progress where
  | idle
  | scheduled
  | executing
  | settling
  deriving DecidableEq

structure Entry where
  lifecycle : BackgroundLifecycle
  events : List BackgroundRunEvent
  nextSequence : Nat
  metrics : RunMetrics
  pause : Option Pause
  lease : Option RunLease
  outcome : Option BackgroundTerminalOutcome
  process : Option RunProcessIdentity
  wake : List WakeEntry
  active : Bool
  cancelled : Bool
  progress : Progress
  timer : Bool
  leaseTimer : Bool

/-- What an event says besides its lifecycle. -/
structure EventFields where
  stage : Option WorkflowPhase := none
  pause : Option Pause := none
  errorCode : Option RunErrorCode := none
  metrics : Option RunMetrics := none

section Entries

variable (config : BackgroundRunConfig)

/-- The kind under which an event wakes, if it does. -/
def wakes (lifecycle : BackgroundLifecycle) : Option WakeKind :=
  lifecycle.wakeKind?.filter fun kind => config.wakeKinds.all (·.contains kind)

def coalesceWake (now : Nat) (lifecycle : BackgroundLifecycle) (wake : List WakeEntry) :
    List WakeEntry :=
  match wakes config lifecycle with
  | none => wake
  | some kind => coalesceWindow config.maxWakeEntriesPerRun kind now wake

/-- The newest events, if their number is limited. -/
def retained (events : List BackgroundRunEvent) : List BackgroundRunEvent :=
  if config.maxEventsPerRun = 0 then events
  else events.drop (events.length - config.maxEventsPerRun)

/-- `append` without its write. -/
def Entry.append (now : Nat) (lifecycle : BackgroundLifecycle) (fields : EventFields)
    (e : Entry) : Entry :=
  let event : BackgroundRunEvent := ⟨e.nextSequence, config.runId, lifecycle, now, fields.stage,
    fields.pause, fields.errorCode, fields.metrics⟩
  { e with
    events := retained config (e.events ++ [event])
    nextSequence := e.nextSequence + 1
    wake := coalesceWake config now lifecycle e.wake }

/-- `statusOf` of a terminal entry, as the base of its outcome. -/
def Entry.terminalStatus (e : Entry) (lifecycle : BackgroundLifecycle) :
    BackgroundTerminalOutcome :=
  ⟨config.runId, lifecycle, e.metrics, e.pause, some .none, none, none, none, none, none⟩

/-- The record that a copy stands for, over the record on disk. -/
def Entry.persisted (e : Entry) (current : Option PersistedEntry) : PersistedEntry :=
  { ownerId := config.ownerId
    runId := config.runId
    lifecycle := e.lifecycle
    events := e.events
    nextSequence := e.nextSequence
    metrics := e.metrics
    pause := e.pause
    lease := e.lease
    outcome := e.outcome
    wake := mergeWake (current.bind (·.wake)) (some e.wake)
    process := e.process.or (current.bind (·.process)) }

/-- The event of a pause; its stage is left out where events have no such stage. -/
def pauseFields (pause : Pause) (metrics : RunMetrics) : EventFields where
  stage := if pause.phase ∈ stagePhases then some pause.phase else none
  pause := some pause
  metrics := some metrics

/-! ### The methods' work on the copy -/

/-- The entry of `create`, before its first event. -/
def createdEntry (active : Bool) : Entry where
  lifecycle := .requested
  events := []
  nextSequence := 1
  metrics := ⟨0, .finite 0⟩
  pause := none
  lease := none
  outcome := none
  process := none
  wake := []
  active := active
  cancelled := false
  progress := .idle
  timer := false
  leaseTimer := false

def Entry.failLaunch (now : Nat) (e : Entry) : Entry :=
  { e with
    lifecycle := .failed
    outcome := some { e.terminalStatus config .failed with
      recovery := some .inspectEvents } }.append config now .failed
    { errorCode := some .internalFailure, metrics := some e.metrics }

/-- `launch`; the promise that it makes has not begun. -/
def Entry.launch (now : Nat) (workerId : String) (e : Entry) : Entry :=
  { e with
    pause := none
    lease := e.lease.or (some ⟨workerId, now⟩)
    progress := .scheduled
    leaseTimer := true }

def Entry.begin (now : Nat) (e : Entry) : Entry :=
  { { e with lifecycle := .started }.append config now .started {} with
    timer := decide (0 < config.maxRunMs)
    progress := .executing }

def Entry.addStep (step : StepCost) (e : Entry) : Entry :=
  { e with metrics := ⟨e.metrics.steps + 1, config.addCost e.metrics.totalCost step.cost⟩ }

def Entry.onStage (now : Nat) (step : StepCost) (e : Entry) : Entry :=
  let e := e.addStep config step
  e.append config now .stageChanged { stage := some step.phase, metrics := some e.metrics }

def verdictOf : Option VerdictStatus → OutcomeVerdict
  | none => .notRun
  | some status => .status status

/-- The outcome of a settled pipeline. -/
def Entry.completedOutcome (result : RunPipelineResult) (e : Entry) :
    BackgroundTerminalOutcome :=
  { e.terminalStatus config .completed with
    approved := some result.approved
    rounds := some result.rounds
    verdict := some (verdictOf result.lastVerdict)
    budgetCloseout := result.budgetCloseout }

def Entry.complete (now : Nat) (result : RunPipelineResult) (e : Entry) : Entry :=
  let e := { e with
    metrics := ⟨result.perStep.length, result.totalCost⟩
    lifecycle := .completed
    progress := .settling }
  { e with outcome := some (e.completedOutcome config result) }.append config now .completed
    { metrics := some e.metrics }

def Entry.paused (now : Nat) (pause : Pause) (metrics : RunMetrics) (e : Entry) : Entry :=
  { e with
    lifecycle := .paused
    metrics := metrics
    pause := some pause
    progress := .settling }.append config now .paused (pauseFields pause metrics)

def Entry.attention (now : Nat) (e : Entry) : Entry :=
  { e with lifecycle := .operatorAttention, progress := .settling }.append config now
    .operatorAttention { errorCode := some .operatorAttention, metrics := some e.metrics }

def Entry.failed (now : Nat) (e : Entry) : Entry :=
  { e with
    lifecycle := .failed
    progress := .settling
    outcome := some { e.terminalStatus config .failed with
      recovery := some .inspectEvents } }.append config now .failed
    { errorCode := some .internalFailure, metrics := some e.metrics }

/-- The promise's `finally`. -/
def Entry.settle (e : Entry) : Entry :=
  { e with active := false, timer := false, leaseTimer := false, lease := none, progress := .idle }

/-- The lease timer's callback. -/
def Entry.heartbeat (now : Nat) (e : Entry) : Entry :=
  { e with lease := e.lease.map fun lease => { lease with heartbeatAt := now } }

def Entry.cancel (now : Nat) (e : Entry) : Entry :=
  { e with
    cancelled := true
    lifecycle := .cancelled
    outcome := some (e.terminalStatus config .cancelled) }.append config now .cancelled
    { metrics := some e.metrics }

def Entry.timeout (now : Nat) (e : Entry) : Entry :=
  { e with
    cancelled := true
    timer := false
    lifecycle := .timedOut
    outcome := some { e.terminalStatus config .timedOut with
      recovery := some .resumePipeline
      recoveryDetail := some resumePipelineDetail } }.append config now .timedOut
    { errorCode := some .deadlineExceeded, metrics := some e.metrics }

/-- What `load` makes of a run that nobody works on any more. -/
def Entry.abandon (now : Nat) (e : Entry) : Entry :=
  { e with
    lifecycle := .failed
    cancelled := true
    outcome := some ⟨config.runId, .failed, e.metrics, none, some .resumePipeline,
      some resumePipelineDetail, none, none, none, none⟩ }.append config now .failed
    { errorCode := some .internalFailure, metrics := some e.metrics }

/-- The events of the steps that a foreground resume took. -/
def Entry.projectSegment (now : Nat) (segment : List StepCost) (e : Entry) : Entry :=
  segment.foldl (fun e step => { e with lifecycle := .stageChanged }.onStage config now step)
    ({ e with lifecycle := .started }.append config now .started {})

def Entry.projectPause (now : Nat) (pause : Pause) (metrics : RunMetrics)
    (segment : List StepCost) (e : Entry) : Entry :=
  let e := { e with outcome := none }
  let e := if segment = [] then e else e.projectSegment config now segment
  { e with lifecycle := .paused, metrics := metrics, pause := some pause }.append config now
    .paused (pauseFields pause metrics)

def Entry.projectResult (now : Nat) (result : RunPipelineResult) (e : Entry) : Entry :=
  let e := { e with pause := none, outcome := none }.projectSegment config now result.perStep
  let e := { e with lifecycle := .completed }
  { e with outcome := some (e.completedOutcome config result) }.append config now .completed
    { metrics := some e.metrics }

/-- What a method does to the copy before it writes the copy. A run that is created for
this process goes on to be launched under the given worker. -/
inductive Work where
  | create (workerId : Option String)
  | launch (workerId : String)
  | begin
  | stage (step : StepCost)
  | complete (result : RunPipelineResult)
  | pause (reason : Pause) (metrics : RunMetrics)
  | attention
  | fail
  | settle
  | heartbeat
  | cancel
  | timeout
  | abandon
  | failLaunch
  | persist
  | projectPause (reason : Pause) (metrics : RunMetrics) (segment : List StepCost)
  | projectResult (result : RunPipelineResult)

def Work.run (now : Nat) (e : Entry) : Work → Entry
  | create _ => e.append config now .requested {}
  | launch workerId => e.launch now workerId
  | begin => e.begin config now
  | stage step => e.onStage config now step
  | complete result => e.complete config now result
  | pause reason metrics => e.paused config now reason metrics
  | attention => e.attention config now
  | fail => e.failed config now
  | settle => e.settle
  | heartbeat => e.heartbeat now
  | cancel => e.cancel config now
  | timeout => e.timeout config now
  | abandon => e.abandon config now
  | failLaunch => e.failLaunch config now
  | persist => e
  | projectPause reason metrics segment => e.projectPause config now reason metrics segment
  | projectResult result => e.projectResult config now result

/-- The lifecycles of the events that a work appends. -/
def Work.appends : Work → List BackgroundLifecycle
  | create _ => [.requested]
  | launch _ | settle | heartbeat | persist => []
  | begin => [.started]
  | stage _ => [.stageChanged]
  | complete _ => [.completed]
  | pause _ _ => [.paused]
  | attention => [.operatorAttention]
  | fail | abandon | failLaunch => [.failed]
  | cancel => [.cancelled]
  | timeout => [.timedOut]
  | projectPause _ _ segment =>
      (if segment = [] then [] else .started :: segment.map fun _ => .stageChanged) ++ [.paused]
  | projectResult result =>
      .started :: (result.perStep.map fun _ => .stageChanged) ++ [.completed]

/-! ### Reading the record -/

/-- What a manager takes over from a record that it reads. -/
def Entry.ofRecord (e : Entry) (record : PersistedEntry) : Entry :=
  { e with
    lifecycle := record.lifecycle
    events := record.events
    nextSequence := record.nextSequence
    metrics := record.metrics
    pause := record.pause
    lease := record.lease
    outcome := record.outcome
    process := record.process
    wake := record.wake.getD [] }

/-- The entry of a manager that loads the record; it does not take over the process. -/
def loadedEntry (record : PersistedEntry) : Entry :=
  { lifecycle := record.lifecycle, events := record.events, nextSequence := record.nextSequence,
    metrics := record.metrics, pause := record.pause, lease := record.lease,
    outcome := record.outcome, process := none, wake := record.wake.getD [], active := false,
    cancelled := false, progress := .idle, timer := false, leaseTimer := false }

def hasFreshLease (now : Nat) (lease : Option RunLease) : Bool :=
  lease.any fun lease => now ≤ lease.heartbeatAt + config.leaseMs

/-- The claim deadline of an unclaimed request has passed. -/
def claimOverdue (now : Nat) (lease : Option RunLease) (events : List BackgroundRunEvent) :
    Bool :=
  let anchor := match lease with
    | some lease => lease.heartbeatAt
    | none => (events.head?.map (·.timestamp)).getD now
  anchor + config.leaseMs ≤ now

def reapDue (now : Nat) (lifecycle : BackgroundLifecycle) (lease : Option RunLease)
    (events : List BackgroundRunEvent) : Bool :=
  lifecycle == .requested && !hasFreshLease config now lease && claimOverdue config now lease events

/-- The run is under way and its worker is gone. -/
def abandoned (now : Nat) (record : PersistedEntry) : Bool :=
  !record.lifecycle.isTerminal && record.lifecycle != .paused && record.lifecycle != .requested &&
    !hasFreshLease config now record.lease

/-- The reconciled record; it keeps every other field. -/
def reaped (now : Nat) (record : PersistedEntry) : PersistedEntry :=
  { record with
    lifecycle := .failed
    lease := none
    outcome := some ⟨config.runId, .failed, record.metrics, none, some .inspectEvents,
      some claimDeadlineDetail, none, none, none, none⟩
    events := record.events ++ [⟨record.nextSequence, config.runId, .failed, now, none, none,
      some .internalFailure, some record.metrics⟩]
    nextSequence := record.nextSequence + 1
    wake := some (record.wake.getD [] ++ [openWindow .failed now]) }

/-! ### Wake windows -/

/-- The windows that `pendingWakes` reports. -/
def pendingOf (e : Entry) : List WakeEntry :=
  e.wake.filter fun w => !w.handled && config.wakeKinds.all (·.contains w.kind)

end Entries

/-- The argument of `markWakesHandled`: reported windows, or kinds. -/
inductive Marks where
  | exact (wakes : List WakeEntry)
  | kinds (named : List WakeKind)

def Marks.covers (w : WakeEntry) : Marks → Bool
  | exact wakes => wakes.any fun wake => wake.kind == w.kind && wake.firstAt == w.firstAt &&
      wake.lastAt == w.lastAt && wake.count == w.count
  | kinds named => named.contains w.kind

def Marks.handle (now : Nat) (marks : Marks) (entries : List WakeEntry) : List WakeEntry :=
  entries.map fun w =>
    if marks.covers w && !w.handled then { w with handled := true, handledAt := some now } else w

end AdCoder.BackgroundRuns
