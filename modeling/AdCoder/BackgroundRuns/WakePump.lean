import AdCoder.BackgroundRuns.Manager

/-!
# The wake pump

Unhandled wake windows are drained into orchestrator turns, one turn for each
batch. The pump's activations that wait for a turn are listed, so that nothing
in the model keeps them apart but the pump's own flags.
-/

namespace AdCoder.BackgroundRuns

open Foundation Orchestration ProjectOperations

/-- A window that is reported with its run. -/
structure PendingWake where
  runId : String
  window : WakeEntry
  pause : Option Pause
  metrics : Option RunMetrics

/-- How the host prints numbers and dates; a date out of range throws. -/
structure WakeHost where
  format : NumberFormat
  isoString : Nat → Option String

/-! ## The prompt -/

def pauseLines (host : WakeHost) (pause : Pause) : List String :=
  ["  - pause: phase=" ++ pause.phase.text ++ " code=" ++ pause.code] ++
    (pause.limitReason.map fun reason => "    limitReason=" ++ reason.text).toList ++
    (pause.limit.map fun limit => "    limit=" ++ host.format.print (.finite limit)).toList ++
    ["    action=" ++ pause.action]

def wakeLines (host : WakeHost) (wake : PendingWake) : Option (List String) := do
  let since ← host.isoString wake.window.firstAt
  return ["", "- run " ++ wake.runId ++ ": " ++ wake.window.kind.text] ++
    ((wake.pause.map (pauseLines host)).getD []) ++
    (wake.metrics.map fun metrics =>
      "  - metrics: steps=" ++ host.format.print (.finite metrics.steps) ++ " totalCost=" ++
        host.format.print metrics.totalCost).toList ++
    ["  - coalesced: " ++ host.format.print (.finite wake.window.count) ++ " notice(s) since " ++
      since]

def resolutionRules : String :=
  "Resolution rules: a `stage_limit` pause is resolved by calling resume_pipeline with " ++
  "exactly ONE raiseRole, ONE raiseReason, and a raiseLimit LARGER than the exhausted value " ++
  "(the coordinator refuses an unchanged ceiling). A `failed`, `completed`, `timed_out`, " ++
  "`operator_attention`, or `stage_changed` notice is handled, or explicitly recorded why it " ++
  "cannot be. Do not model any content or raw event prose, and use no parallel resolver " ++
  "beside resume_pipeline."

def promptOpening : String :=
  "Background runs recorded state notices that need an orchestrator decision. " ++
  "Act on each one below."

def buildWakeTurnPrompt (host : WakeHost) (wakes : List PendingWake) : Option String := do
  let lines ← wakes.mapM (wakeLines host)
  return "\n".intercalate
    ([promptOpening] ++ lines.flatten ++ ["", resolutionRules, resumePipelineDetail])

/-! ## Durable state -/

/-- A run of the owner, as the manager has it after a refresh. -/
structure OwnedRun where
  runId : String
  wake : List WakeEntry
  pause : Option Pause
  metrics : RunMetrics

structure WakePumpConfig where
  maxWakesPerTurn : Nat
  positive : 0 < maxWakesPerTurn
  wakeKinds : Option (List WakeKind)
  host : WakeHost

/-- The windows that are unhandled and of a kind that wakes. -/
def listPending (config : WakePumpConfig) (runs : List OwnedRun) : List PendingWake :=
  runs.flatMap fun run =>
    (run.wake.filter fun w => !w.handled && config.wakeKinds.all (·.contains w.kind)).map fun w =>
      ⟨run.runId, w, run.pause, some run.metrics⟩

/-- `markWakesHandled` with reported windows. -/
def markHandled (now : Nat) (runId : String) (wakes : List PendingWake) (runs : List OwnedRun) :
    List OwnedRun :=
  runs.map fun run =>
    if run.runId = runId then
      { run with wake := (Marks.exact (wakes.map (·.window))).handle now run.wake }
    else run

def sameWindow (left right : PendingWake) : Bool :=
  left.runId == right.runId && left.window.kind == right.window.kind &&
    left.window.firstAt == right.window.firstAt && left.window.lastAt == right.window.lastAt &&
    left.window.count == right.window.count

/-- The wakes of each run, the runs in the order in which the batch names them. -/
def byRun (batch : List PendingWake) : List (String × List PendingWake) :=
  (batch.map (·.runId)).eraseDups.map fun runId => (runId, batch.filter (·.runId = runId))

/-! ## The pump -/

/-- An activation of `drain` that waits for its turn. -/
structure Drain where
  step : Nat
  batch : List PendingWake

structure WakePump where
  inFlight : Bool
  scheduled : Bool
  turnCounter : Nat
  /-- The scan whose promise the next idle state resolves. -/
  idleResolver : Option Nat
  /-- Callbacks in the microtask queue. -/
  microtasks : Nat
  drains : List Drain
  /-- The calls of `runTurn`, with their prompts. -/
  turns : List (Nat × String)
  scans : Nat
  /-- The scans whose promise is resolved. -/
  idle : List Nat
  runs : List OwnedRun

/-- What the callback meets: a busy lane, or durable state that cannot be read. -/
structure Lane where
  turnActive : Bool
  recoveryBlocked : Bool
  unreadable : Bool

/-- What marking the windows of a run does; it may throw after it took effect. -/
inductive MarkAnswer where
  | marked (now : Nat)
  | failed (landed : Option Nat)

/-- What the pump meets after its turn resolved. -/
structure Answers where
  marks : String → MarkAnswer
  unreadable : Bool

inductive TurnOutcome where
  | rejected
  | resolved (answers : Answers)

inductive PumpEvent where
  | notifyChange
  | onTurnSettled
  | startupScan
  | microtask (lane : Lane)
  | settle (step : Nat) (outcome : TurnOutcome)
  /-- Other processes and the runs themselves change the durable state. -/
  | environment (runs : List OwnedRun)

namespace WakePump

def start (runs : List OwnedRun) : WakePump where
  inFlight := false
  scheduled := false
  turnCounter := 0
  idleResolver := none
  microtasks := 0
  drains := []
  turns := []
  scans := 0
  idle := []
  runs := runs

def schedule (pump : WakePump) : WakePump :=
  if pump.scheduled || pump.inFlight then pump
  else { pump with scheduled := true, microtasks := pump.microtasks + 1 }

def resolveIdle (pump : WakePump) : WakePump :=
  match pump.idleResolver with
  | none => pump
  | some scan => { pump with idleResolver := none, idle := pump.idle ++ [scan] }

/-- `schedule` and `awaitIdle` of `startupScan`. -/
def startupScan (pump : WakePump) : WakePump :=
  let pump := pump.schedule
  let counted := { pump with scans := pump.scans + 1 }
  if !pump.inFlight && !pump.scheduled then { counted with idle := pump.idle ++ [pump.scans] }
  else { counted with idleResolver := some pump.scans }

/-- The `finally` block of `drain`. -/
def finish (pump : WakePump) (remaining : Bool) : WakePump :=
  let pump := { pump with inFlight := false }
  if remaining then pump.schedule else pump.resolveIdle

/-- `drain`, up to its first wait. -/
def drain (config : WakePumpConfig) (lane : Lane) (pump : WakePump) : WakePump :=
  if pump.inFlight then pump
  else
    let pump := { pump with inFlight := true }
    let pending := if lane.unreadable then [] else listPending config pump.runs
    if pending.isEmpty then pump.finish false
    else
      let batch := pending.take config.maxWakesPerTurn
      let step := pump.turnCounter + 1
      let pump := { pump with turnCounter := step }
      match buildWakeTurnPrompt config.host batch with
      | none => pump.finish false
      | some prompt =>
          { pump with
            turns := pump.turns ++ [(step, prompt)]
            drains := pump.drains ++ [⟨step, batch⟩] }

/-- A queued callback of `schedule`. -/
def callback (config : WakePumpConfig) (lane : Lane) (pump : WakePump) : WakePump :=
  if pump.microtasks = 0 then pump
  else
    let pump := { pump with scheduled := false, microtasks := pump.microtasks - 1 }
    if lane.turnActive || lane.recoveryBlocked then pump.resolveIdle else pump.drain config lane

/-- The marks of the runs of a batch, up to the first that throws; whether none did. -/
def markRuns (answers : Answers) : List (String × List PendingWake) → List OwnedRun →
    List OwnedRun × Bool
  | [], runs => (runs, true)
  | (runId, wakes) :: rest, runs =>
      match answers.marks runId with
      | .marked now => markRuns answers rest (markHandled now runId wakes runs)
      | .failed none => (runs, false)
      | .failed (some now) => (markHandled now runId wakes runs, false)

/-- `drain`, after the wait. -/
def afterTurn (config : WakePumpConfig) (batch : List PendingWake) (outcome : TurnOutcome)
    (pump : WakePump) : WakePump :=
  match outcome with
  | .rejected => pump.finish false
  | .resolved answers =>
      let (runs, marked) := markRuns answers (byRun batch) pump.runs
      let pump := { pump with runs }
      if marked && !answers.unreadable then
        pump.finish ((listPending config runs).any fun current =>
          !batch.any fun drained => sameWindow current drained)
      else pump.finish false

def settle (config : WakePumpConfig) (step : Nat) (outcome : TurnOutcome) (pump : WakePump) :
    WakePump :=
  match pump.drains.find? (·.step = step) with
  | none => pump
  | some drain =>
      afterTurn config drain.batch outcome
        { pump with drains := pump.drains.filter (·.step ≠ step) }

def apply (config : WakePumpConfig) (pump : WakePump) : PumpEvent → WakePump
  | .notifyChange => pump.schedule
  | .onTurnSettled => pump.schedule
  | .startupScan => pump.startupScan
  | .microtask lane => pump.callback config lane
  | .settle step outcome => pump.settle config step outcome
  | .environment runs => { pump with runs }

def run (config : WakePumpConfig) (runs : List OwnedRun) (events : List PumpEvent) : WakePump :=
  events.foldl (apply config) (start runs)

end WakePump

end AdCoder.BackgroundRuns
