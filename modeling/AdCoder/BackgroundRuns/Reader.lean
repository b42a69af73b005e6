import AdCoder.BackgroundRuns.Record
import Mathlib.Algebra.GroupWithZero.Nat

/-!
# Reading a background-run record

The reader knows the shape, the enumerations and the bounds of every field, and
refuses a record that differs. On a record that a writer serialised it returns
that record just in case every field fits.
-/

namespace AdCoder.BackgroundRuns

open Foundation Orchestration ProjectOperations JsonReader

/-! ## The enumerations and bounds -/

/-- `PHASES`. -/
def stagePhases : List WorkflowPhase := [.plan, .research, .security, .code, .review, .done]

/-- `PAUSE_PHASES`. -/
def pausePhases : List WorkflowPhase :=
  [.plan, .research, .security, .code, .gates, .review, .done]

/-- `STAGE_LIMIT_REASONS`. -/
def stageLimitReasons : List StageLimitReason :=
  [.duration, .modelTurns, .toolTurns, .input, .cost, .costInFlight, .costUnknown]

/-- `ERROR_CODES`. -/
def errorCodes : List RunErrorCode := [.internalFailure, .operatorAttention, .deadlineExceeded]

/-- `RECOVERIES`. -/
def recoveries : List Recovery := [.wait, .inspectEvents, .resumePipeline, .none]

/-- The verdicts that `parseOutcome` knows. -/
def outcomeVerdicts : List OutcomeVerdict :=
  [.status .approved, .status .changesRequested, .notRun]

def length (text : String) : Nat := (codeUnits text).length

@[simp] theorem length_append (left right : String) :
    length (left ++ right) = length left + length right := by
  simp [length, codeUnits_append]

theorem length_ofList (text : List Char) :
    length (String.ofList text) = (text.map unitsOf).sum := by
  rw [length, codeUnits, String.toList_ofList]
  induction text with
  | nil => rfl
  | cons x rest ih =>
      rw [List.flatMap_cons, List.length_append, ih, List.map_cons, List.sum_cons, unitsOf]
      split_ifs <;> rfl

/-- The length of a literal, which unfolds to its characters. -/
theorem length_literal {text : List Char} {n : Nat} (units : (text.map unitsOf).sum = n) :
    length (String.ofList text) = n :=
  (length_ofList text).trans units

theorem length_append_literal {left : String} {right : List Char} {m n : Nat}
    (before : length left = m) (after : (right.map unitsOf).sum = n) :
    length (left ++ String.ofList right) = m + n := by
  rw [length_append, before, length_literal after]

def requiredString : Json → Except String String :=
  JsonReader.text (fun s => 0 < length s && length s ≤ maxPersistedStringChars)
    "record contains an invalid string"

/-! ## The readers -/

def parseMetrics (value : Json) : Except String RunMetrics := do
  let object ← strictObject ["steps", "totalCost"] value
  pure ⟨← safeInteger 0 (property "steps" object), ← finiteNumber (property "totalCost" object)⟩

def parseWakeEntry (value : Json) : Except String WakeEntry := do
  let object ← strictObject ["kind", "firstAt", "lastAt", "count", "handled", "handledAt"] value
  let kind ← enumValue WakeKind.all WakeKind.text (property "kind" object)
  let handled ← boolean "wake handled is invalid" (property "handled" object)
  let firstAt ← safeInteger 0 (property "firstAt" object)
  let lastAt ← safeInteger 0 (property "lastAt" object)
  let count ← safeInteger 1 (property "count" object)
  let handledAt ← optional (safeInteger 0) (Json.lookup "handledAt" object)
  pure ⟨kind, firstAt, lastAt, count, handled, handledAt⟩

def parseWake (value : Json) : Except String (List WakeEntry) := do
  let object ← strictObject ["entries"] value
  array "wake entries must be an array" parseWakeEntry (property "entries" object)

def parsePauseCause (value : Json) : Except String PipelinePauseCause := do
  let object ← strictObject ["code", "message", "recurrence"] value
  let code ← JsonReader.text (fun s => 0 < length s && length s ≤ maxPauseCauseCodeChars)
    "pause cause code is invalid" (property "code" object)
  let message ← optional (JsonReader.text (fun s => length s ≤ maxPauseCauseMessageChars)
    "pause cause message is invalid") (Json.lookup "message" object)
  let recurrence ← safeInteger 0 (property "recurrence" object)
  pure ⟨code, message, recurrence⟩

def parsePause (value : Json) : Except String Pause := do
  let object ← strictObject ["phase", "code", "action", "limitReason", "limit", "cause"] value
  let phase ← enumValue pausePhases WorkflowPhase.text (property "phase" object)
  let limitReason ← optional (enumValue stageLimitReasons StageLimitReason.text)
    (Json.lookup "limitReason" object)
  let code ← requiredString (property "code" object)
  let action ← requiredString (property "action" object)
  let limit ← optional finiteRat (Json.lookup "limit" object)
  let cause ← optional parsePauseCause (Json.lookup "cause" object)
  pure ⟨phase, code, action, limitReason, limit, cause⟩

def parseEvent (runId : String) (value : Json) : Except String BackgroundRunEvent := do
  let object ← strictObject ["sequence", "runId", "lifecycle", "timestamp", "stage", "pause",
    "errorCode", "metrics"] value
  let eventRun ← JsonReader.text (· == runId) "event run does not match record"
    (property "runId" object)
  let lifecycle ← enumValue BackgroundLifecycle.all BackgroundLifecycle.text
    (property "lifecycle" object)
  let stage ← optional (enumValue stagePhases WorkflowPhase.text) (Json.lookup "stage" object)
  let sequence ← safeInteger 1 (property "sequence" object)
  let timestamp ← safeInteger 0 (property "timestamp" object)
  let pause ← optional parsePause (Json.lookup "pause" object)
  let errorCode ← optional (enumValue errorCodes RunErrorCode.text)
    (Json.lookup "errorCode" object)
  let metrics ← optional parseMetrics (Json.lookup "metrics" object)
  pure ⟨sequence, eventRun, lifecycle, timestamp, stage, pause, errorCode, metrics⟩

def parseBudgetCloseout (value : Json) : Except String BudgetCloseout := do
  let object ← strictObject ["ceilingUsd", "ceilingSource", "spendUsd", "remainderUsd",
    "providerBillingReported", "providerBillingUsd"] value
  let providerBillingReported ← boolean "record contains an invalid boolean"
    (property "providerBillingReported" object)
  let providerBillingUsd ← optional finiteNumber (Json.lookup "providerBillingUsd" object)
  require (providerBillingReported == providerBillingUsd.isSome)
    "record contains an inconsistent provider billing"
  let ceilingUsd ← finiteNumber (property "ceilingUsd" object)
  let ceilingSource ← enumValue [CeilingSource.operator, .estimate] CeilingSource.text
    (property "ceilingSource" object)
  let spendUsd ← finiteNumber (property "spendUsd" object)
  let remainderUsd ← signedNumber (property "remainderUsd" object)
  pure ⟨ceilingUsd, ceilingSource, spendUsd, remainderUsd, providerBillingReported,
    providerBillingUsd⟩

def parseOutcome (runId : String) (value : Json) :
    Except String BackgroundTerminalOutcome := do
  let object ← strictObject ["runId", "lifecycle", "metrics", "pause", "recovery",
    "recoveryDetail", "approved", "rounds", "verdict", "budgetCloseout"] value
  let outcomeRun ← JsonReader.text (· == runId) "outcome run does not match record"
    (property "runId" object)
  let lifecycle ← enumValue BackgroundLifecycle.terminal BackgroundLifecycle.text
    (property "lifecycle" object)
  let approved ← optional (boolean "outcome approval is invalid")
    (Json.lookup "approved" object)
  let metrics ← parseMetrics (property "metrics" object)
  let pause ← optional parsePause (Json.lookup "pause" object)
  let recovery ← optional (enumValue recoveries Recovery.text) (Json.lookup "recovery" object)
  let recoveryDetail ← optional (JsonReader.text (fun s => 0 < length s && length s ≤ 1024)
    "outcome detail is invalid") (Json.lookup "recoveryDetail" object)
  let rounds ← optional (safeInteger 0) (Json.lookup "rounds" object)
  let verdict ← optional (enumValue outcomeVerdicts OutcomeVerdict.text)
    (Json.lookup "verdict" object)
  let budgetCloseout ← optional parseBudgetCloseout (Json.lookup "budgetCloseout" object)
  pure ⟨outcomeRun, lifecycle, metrics, pause, recovery, recoveryDetail, approved, rounds,
    verdict, budgetCloseout⟩

def parseLease (value : Json) : Except String RunLease := do
  let object ← strictObject ["workerId", "heartbeatAt"] value
  let workerId ← requiredString (property "workerId" object)
  let heartbeatAt ← safeInteger 0 (property "heartbeatAt" object)
  pure ⟨workerId, heartbeatAt⟩

/-- `/^\d{1,32}$/`. -/
def clockToken (text : String) : Bool :=
  0 < text.toList.length && text.toList.length ≤ 32 && text.toList.all Regex.isDigit

def parseProcessIdentity (value : Json) : Except String RunProcessIdentity := do
  let object ← strictObject ["pid", "startTime", "procfsCtimeNs", "groupId"] value
  let pid ← safeInteger 1 (property "pid" object)
  let startTime ← optional (JsonReader.text clockToken "record process start time is invalid")
    (Json.lookup "startTime" object)
  let procfsCtimeNs ← optional
    (JsonReader.text clockToken "record process procfs birth witness is invalid")
    (Json.lookup "procfsCtimeNs" object)
  let groupId ← optional (safeInteger 1) (Json.lookup "groupId" object)
  pure ⟨pid, startTime, procfsCtimeNs, groupId⟩

/-- Sequence numbers increase and stay below the next one. -/
def ordered (nextSequence : Nat) : List BackgroundRunEvent → Bool
  | [] => true
  | [event] => event.sequence < nextSequence
  | event :: next :: rest => event.sequence < nextSequence && event.sequence < next.sequence &&
      ordered nextSequence (next :: rest)

def parsePersistedEntry (value : Json) : Except String PersistedEntry := do
  let object ← strictObject ["version", "ownerId", "runId", "lifecycle", "events",
    "nextSequence", "metrics", "pause", "lease", "outcome", "wake", "process"] value
  require (match property "version" object with
    | .num version => version == 1
    | _ => false) "record schema version is invalid"
  let ownerId ← requiredString (property "ownerId" object)
  let runId ← requiredString (property "runId" object)
  let lifecycle ← enumValue BackgroundLifecycle.all BackgroundLifecycle.text
    (property "lifecycle" object)
  let events ← array "record schema version is invalid" (parseEvent runId)
    (property "events" object)
  let nextSequence ← safeInteger 1 (property "nextSequence" object)
  require (ordered nextSequence events) "event sequence is invalid"
  let lease ← optional parseLease (Json.lookup "lease" object)
  let pause ← optional parsePause (Json.lookup "pause" object)
  let outcome ← optional (parseOutcome runId) (Json.lookup "outcome" object)
  let wake ← optional parseWake (Json.lookup "wake" object)
  let process ← optional parseProcessIdentity (Json.lookup "process" object)
  require (outcome.all fun outcome => outcome.lifecycle == lifecycle)
    "outcome lifecycle does not match record"
  require (lifecycle.isTerminal == outcome.isSome) "terminal outcome is missing or unexpected"
  let metrics ← parseMetrics (property "metrics" object)
  pure ⟨ownerId, runId, lifecycle, events, nextSequence, metrics, pause, lease, outcome, wake,
    process⟩

/-! ## Records that fit

Each condition says what the reader asks of the fields of a written record.
-/

namespace RunMetrics

def Fits (metrics : RunMetrics) : Prop :=
  metrics.steps ≤ JsNumber.maxSafe ∧ metrics.totalCost.isFinite = true ∧
    metrics.totalCost.atLeast 0 = true

instance (metrics : RunMetrics) : Decidable metrics.Fits := inferInstanceAs (Decidable (_ ∧ _))

theorem yields (metrics : RunMetrics) :
    Yields (parseMetrics metrics.toJson) metrics.Fits metrics := by
  apply Yields.of_iff
  · apply Yields.bind (yields_strictObject (by simp))
    simp only [property_fields_cons, String.reduceEq, reduceIte, Option.getD_some]
    apply Yields.bind (yields_safeInteger 0 metrics.steps)
    apply Yields.bind (yields_finiteNumber metrics.totalCost)
    exact .of_pure
  · simp [Fits]

end RunMetrics

namespace WakeEntry

def Fits (w : WakeEntry) : Prop :=
  w.firstAt ≤ JsNumber.maxSafe ∧ w.lastAt ≤ JsNumber.maxSafe ∧
    (1 ≤ w.count ∧ w.count ≤ JsNumber.maxSafe) ∧
    ∀ at_time, w.handledAt = some at_time → at_time ≤ JsNumber.maxSafe

theorem yields (w : WakeEntry) : Yields (parseWakeEntry w.toJson) w.Fits w := by
  apply Yields.of_iff
  · apply Yields.bind (yields_strictObject (by simp))
    simp only [property_fields_cons, Json.lookup_fields_cons, Json.lookup_fields_nil,
      String.reduceEq, reduceIte, Option.getD_some, Option.or_none]
    apply Yields.bind (yields_enumValue WakeKind.text_injective w.kind)
    apply Yields.bind (yields_boolean _ w.handled)
    apply Yields.bind (yields_safeInteger 0 w.firstAt)
    apply Yields.bind (yields_safeInteger 0 w.lastAt)
    apply Yields.bind (yields_safeInteger 1 w.count)
    apply Yields.bind (yields_optional (yields_safeInteger 0) w.handledAt)
    exact .of_pure
  · simp [Fits, WakeKind.mem_all]

end WakeEntry

theorem phaseText_injective (x y : WorkflowPhase) (h : x.text = y.text) : x = y := by
  cases x <;> cases y <;> first | rfl | exact absurd h (by decide)

theorem StageLimitReason.text_injective (x y : StageLimitReason) (h : x.text = y.text) :
    x = y := by
  cases x <;> cases y <;> first | rfl | exact absurd h (by decide)

theorem RunErrorCode.text_injective (x y : RunErrorCode) (h : x.text = y.text) : x = y := by
  cases x <;> cases y <;> first | rfl | exact absurd h (by decide)

theorem Recovery.text_injective (x y : Recovery) (h : x.text = y.text) : x = y := by
  cases x <;> cases y <;> first | rfl | exact absurd h (by decide)

theorem CeilingSource.text_injective (x y : CeilingSource) (h : x.text = y.text) : x = y := by
  cases x <;> cases y <;> first | rfl | exact absurd h (by decide)

theorem OutcomeVerdict.text_injective (x y : OutcomeVerdict) (h : x.text = y.text) : x = y := by
  rcases x with _ | ⟨_ | _ | _⟩ <;> rcases y with _ | ⟨_ | _ | _⟩ <;>
    first | rfl | exact absurd h (by decide)

/-- `requiredString` accepts the text. -/
def FitsString (text : String) : Prop :=
  0 < length text ∧ length text ≤ maxPersistedStringChars

instance (text : String) : Decidable (FitsString text) := inferInstanceAs (Decidable (_ ∧ _))

theorem fitsString_literal {text : List Char}
    (units : (0 < (text.map unitsOf).sum &&
      (text.map unitsOf).sum ≤ maxPersistedStringChars) = true) : FitsString (String.ofList text) := by
  rw [FitsString, length_ofList]
  simpa using units

theorem yields_requiredString (text : String) :
    Yields (requiredString (.str text)) (FitsString text) text :=
  (yields_text _ _ text).of_iff (by simp [FitsString])

def CauseFits (cause : PipelinePauseCause) : Prop :=
  (0 < length cause.code ∧ length cause.code ≤ maxPauseCauseCodeChars) ∧
    (∀ message, cause.message = some message → length message ≤ maxPauseCauseMessageChars) ∧
    cause.recurrence ≤ JsNumber.maxSafe

instance (cause : PipelinePauseCause) : Decidable (CauseFits cause) :=
  inferInstanceAs (Decidable (_ ∧ _ ∧ _))

theorem yields_parsePauseCause (cause : PipelinePauseCause) :
    Yields (parsePauseCause (causeJson cause)) (CauseFits cause) cause := by
  apply Yields.of_iff
  · apply Yields.bind (yields_strictObject (by simp))
    simp only [property_fields_cons, Json.lookup_fields_cons, Json.lookup_fields_nil,
      String.reduceEq, reduceIte, Option.getD_some, Option.or_none]
    apply Yields.bind (yields_text _ _ cause.code)
    apply Yields.bind (yields_optional (yields_text _ _) cause.message)
    apply Yields.bind (yields_safeInteger 0 cause.recurrence)
    exact .of_pure
  · simp [CauseFits]

def PauseFits (pause : Pause) : Prop :=
  FitsString pause.code ∧ FitsString pause.action ∧
    (∀ limit, pause.limit = some limit → 0 ≤ limit) ∧
    ∀ cause, pause.cause = some cause → CauseFits cause

instance (pause : Pause) : Decidable (PauseFits pause) :=
  inferInstanceAs (Decidable (_ ∧ _ ∧ _ ∧ _))

theorem mem_pausePhases (phase : WorkflowPhase) : phase ∈ pausePhases := by
  cases phase <;> decide

theorem mem_stageLimitReasons (reason : StageLimitReason) : reason ∈ stageLimitReasons := by
  cases reason <;> decide

theorem yields_parsePause (pause : Pause) :
    Yields (parsePause (pauseJson pause)) (PauseFits pause) pause := by
  apply Yields.of_iff
  · apply Yields.bind (yields_strictObject (by simp))
    simp only [property_fields_cons, Json.lookup_fields_cons, Json.lookup_fields_nil,
      String.reduceEq, reduceIte, Option.getD_some, Option.or_none]
    apply Yields.bind (yields_enumValue phaseText_injective pause.phase)
    apply Yields.bind (yields_optional (yields_enumValue StageLimitReason.text_injective)
      pause.limitReason)
    apply Yields.bind (yields_requiredString pause.code)
    apply Yields.bind (yields_requiredString pause.action)
    apply Yields.bind (yields_optional yields_finiteRat pause.limit)
    apply Yields.bind (yields_optional yields_parsePauseCause pause.cause)
    exact .of_pure
  · simp [PauseFits, mem_pausePhases, mem_stageLimitReasons]

namespace BackgroundRunEvent

def Fits (runId : String) (event : BackgroundRunEvent) : Prop :=
  event.runId = runId ∧
    (∀ stage, event.stage = some stage → stage ∈ stagePhases) ∧
    (1 ≤ event.sequence ∧ event.sequence ≤ JsNumber.maxSafe) ∧
    event.timestamp ≤ JsNumber.maxSafe ∧
    (∀ pause, event.pause = some pause → PauseFits pause) ∧
    ∀ metrics, event.metrics = some metrics → metrics.Fits

theorem mem_errorCodes (code : RunErrorCode) : code ∈ errorCodes := by
  cases code <;> decide

theorem yields (runId : String) (event : BackgroundRunEvent) :
    Yields (parseEvent runId event.toJson) (event.Fits runId) event := by
  apply Yields.of_iff
  · apply Yields.bind (yields_strictObject (by simp))
    simp only [property_fields_cons, Json.lookup_fields_cons, Json.lookup_fields_nil,
      String.reduceEq, reduceIte, Option.getD_some, Option.or_none]
    apply Yields.bind (yields_text _ _ event.runId)
    apply Yields.bind (yields_enumValue BackgroundLifecycle.text_injective event.lifecycle)
    apply Yields.bind (yields_optional (yields_enumValue phaseText_injective) event.stage)
    apply Yields.bind (yields_safeInteger 1 event.sequence)
    apply Yields.bind (yields_safeInteger 0 event.timestamp)
    apply Yields.bind (yields_optional yields_parsePause event.pause)
    apply Yields.bind (yields_optional (yields_enumValue RunErrorCode.text_injective)
      event.errorCode)
    apply Yields.bind (yields_optional RunMetrics.yields event.metrics)
    exact .of_pure
  · simp [Fits, BackgroundLifecycle.mem_all, mem_errorCodes]

end BackgroundRunEvent

namespace BudgetCloseout

def Fits (closeout : BudgetCloseout) : Prop :=
  (∀ billed, closeout.providerBillingUsd = some billed →
      billed.isFinite = true ∧ billed.atLeast 0 = true) ∧
    closeout.providerBillingReported = closeout.providerBillingUsd.isSome ∧
    (closeout.ceilingUsd.isFinite = true ∧ closeout.ceilingUsd.atLeast 0 = true) ∧
    (closeout.spendUsd.isFinite = true ∧ closeout.spendUsd.atLeast 0 = true) ∧
    closeout.remainderUsd.isFinite = true

instance (closeout : BudgetCloseout) : Decidable closeout.Fits :=
  inferInstanceAs (Decidable (_ ∧ _ ∧ _ ∧ _ ∧ _))

theorem yields (closeout : BudgetCloseout) :
    Yields (parseBudgetCloseout closeout.toJson) closeout.Fits closeout := by
  apply Yields.of_iff
  · apply Yields.bind (yields_strictObject (by simp))
    simp only [property_fields_cons, Json.lookup_fields_cons, Json.lookup_fields_nil,
      String.reduceEq, reduceIte, Option.getD_some, Option.or_none]
    apply Yields.bind (yields_boolean _ closeout.providerBillingReported)
    apply Yields.bind (yields_optional yields_finiteNumber closeout.providerBillingUsd)
    apply Yields.bind (yields_require _ _)
    apply Yields.bind (yields_finiteNumber closeout.ceilingUsd)
    apply Yields.bind (yields_enumValue CeilingSource.text_injective closeout.ceilingSource)
    apply Yields.bind (yields_finiteNumber closeout.spendUsd)
    apply Yields.bind (yields_signedNumber closeout.remainderUsd)
    exact .of_pure
  · have source : closeout.ceilingSource = .operator ∨ closeout.ceilingSource = .estimate := by
      cases closeout.ceilingSource <;> simp
    simp [Fits, source]

end BudgetCloseout

namespace BackgroundTerminalOutcome

def Fits (runId : String) (outcome : BackgroundTerminalOutcome) : Prop :=
  outcome.runId = runId ∧ outcome.lifecycle ∈ BackgroundLifecycle.terminal ∧
    outcome.metrics.Fits ∧
    (∀ pause, outcome.pause = some pause → PauseFits pause) ∧
    (∀ detail, outcome.recoveryDetail = some detail → 0 < length detail ∧ length detail ≤ 1024) ∧
    (∀ rounds, outcome.rounds = some rounds → rounds ≤ JsNumber.maxSafe) ∧
    (∀ verdict, outcome.verdict = some verdict → verdict ∈ outcomeVerdicts) ∧
    ∀ closeout, outcome.budgetCloseout = some closeout → closeout.Fits

theorem mem_recoveries (recovery : Recovery) : recovery ∈ recoveries := by
  cases recovery <;> decide

theorem yields (runId : String) (outcome : BackgroundTerminalOutcome) :
    Yields (parseOutcome runId outcome.toJson) (outcome.Fits runId) outcome := by
  apply Yields.of_iff
  · apply Yields.bind (yields_strictObject (by simp))
    simp only [property_fields_cons, Json.lookup_fields_cons, Json.lookup_fields_nil,
      String.reduceEq, reduceIte, Option.getD_some, Option.or_none]
    apply Yields.bind (yields_text _ _ outcome.runId)
    apply Yields.bind (yields_enumValue BackgroundLifecycle.text_injective outcome.lifecycle)
    apply Yields.bind (yields_optional (yields_boolean _) outcome.approved)
    apply Yields.bind (RunMetrics.yields outcome.metrics)
    apply Yields.bind (yields_optional yields_parsePause outcome.pause)
    apply Yields.bind (yields_optional (yields_enumValue Recovery.text_injective)
      outcome.recovery)
    apply Yields.bind (yields_optional (yields_text _ _) outcome.recoveryDetail)
    apply Yields.bind (yields_optional (yields_safeInteger 0) outcome.rounds)
    apply Yields.bind (yields_optional (yields_enumValue OutcomeVerdict.text_injective)
      outcome.verdict)
    apply Yields.bind (yields_optional BudgetCloseout.yields outcome.budgetCloseout)
    exact .of_pure
  · simp [Fits, mem_recoveries]

end BackgroundTerminalOutcome

namespace RunLease

def Fits (lease : RunLease) : Prop :=
  FitsString lease.workerId ∧ lease.heartbeatAt ≤ JsNumber.maxSafe

theorem yields (lease : RunLease) : Yields (parseLease lease.toJson) lease.Fits lease := by
  apply Yields.of_iff
  · apply Yields.bind (yields_strictObject (by simp))
    simp only [property_fields_cons, String.reduceEq, reduceIte, Option.getD_some]
    apply Yields.bind (yields_requiredString lease.workerId)
    apply Yields.bind (yields_safeInteger 0 lease.heartbeatAt)
    exact .of_pure
  · simp [Fits]

end RunLease

namespace RunProcessIdentity

def Fits (process : RunProcessIdentity) : Prop :=
  (1 ≤ process.pid ∧ process.pid ≤ JsNumber.maxSafe) ∧
    (∀ token, process.startTime = some token → clockToken token = true) ∧
    (∀ token, process.procfsCtimeNs = some token → clockToken token = true) ∧
    ∀ group, process.groupId = some group → 1 ≤ group ∧ group ≤ JsNumber.maxSafe

instance (process : RunProcessIdentity) : Decidable process.Fits :=
  inferInstanceAs (Decidable (_ ∧ _ ∧ _ ∧ _))

theorem yields (process : RunProcessIdentity) :
    Yields (parseProcessIdentity process.toJson) process.Fits process := by
  apply Yields.of_iff
  · apply Yields.bind (yields_strictObject (by simp))
    simp only [property_fields_cons, Json.lookup_fields_cons, Json.lookup_fields_nil,
      String.reduceEq, reduceIte, Option.getD_some, Option.or_none]
    apply Yields.bind (yields_safeInteger 1 process.pid)
    apply Yields.bind (yields_optional (yields_text _ _) process.startTime)
    apply Yields.bind (yields_optional (yields_text _ _) process.procfsCtimeNs)
    apply Yields.bind (yields_optional (yields_safeInteger 1) process.groupId)
    exact .of_pure
  · simp [Fits]

end RunProcessIdentity

theorem yields_parseWake (entries : List WakeEntry) :
    Yields (parseWake (wakeJson entries)) (∀ w ∈ entries, w.Fits) entries := by
  apply Yields.of_iff
  · apply Yields.bind (yields_strictObject (by simp))
    simp only [property_fields_cons, reduceIte, Option.getD_some]
    exact yields_array WakeEntry.yields _ entries
  · simp

namespace PersistedEntry

/-- Every field of the record is one that the reader accepts. -/
structure Fits (entry : PersistedEntry) : Prop where
  owner : FitsString entry.ownerId
  run : FitsString entry.runId
  events : ∀ event ∈ entry.events, event.Fits entry.runId
  next : 1 ≤ entry.nextSequence ∧ entry.nextSequence ≤ JsNumber.maxSafe
  ordered : ordered entry.nextSequence entry.events = true
  lease : ∀ lease, entry.lease = some lease → lease.Fits
  pause : ∀ pause, entry.pause = some pause → PauseFits pause
  outcome : ∀ outcome, entry.outcome = some outcome →
    outcome.Fits entry.runId ∧ outcome.lifecycle = entry.lifecycle
  wake : ∀ wake, entry.wake = some wake → ∀ w ∈ wake, w.Fits
  process : ∀ process, entry.process = some process → process.Fits
  terminal : entry.lifecycle.isTerminal = entry.outcome.isSome
  metrics : entry.metrics.Fits

/-- A written record is read back as it was written just in case its fields fit. -/
theorem yields (entry : PersistedEntry) :
    Yields (parsePersistedEntry entry.toJson) entry.Fits entry := by
  apply Yields.of_iff
  · apply Yields.bind (yields_strictObject (by simp))
    simp only [property_fields_cons, Json.lookup_fields_cons, Json.lookup_fields_nil,
      String.reduceEq, reduceIte, Option.getD_some, Option.or_none]
    apply Yields.bind (yields_require _ _)
    apply Yields.bind (yields_requiredString entry.ownerId)
    apply Yields.bind (yields_requiredString entry.runId)
    apply Yields.bind (yields_enumValue BackgroundLifecycle.text_injective entry.lifecycle)
    apply Yields.bind (yields_array (BackgroundRunEvent.yields entry.runId) _ entry.events)
    apply Yields.bind (yields_safeInteger 1 entry.nextSequence)
    apply Yields.bind (yields_require _ _)
    apply Yields.bind (yields_optional RunLease.yields entry.lease)
    apply Yields.bind (yields_optional yields_parsePause entry.pause)
    apply Yields.bind (yields_optional (BackgroundTerminalOutcome.yields entry.runId)
      entry.outcome)
    apply Yields.bind (yields_optional yields_parseWake entry.wake)
    apply Yields.bind (yields_optional RunProcessIdentity.yields entry.process)
    apply Yields.bind (yields_require _ _)
    apply Yields.bind (yields_require _ _)
    apply Yields.bind (RunMetrics.yields entry.metrics)
    exact .of_pure
  · have same : (entry.outcome.all fun outcome => outcome.lifecycle == entry.lifecycle) = true ↔
        ∀ outcome, entry.outcome = some outcome → outcome.lifecycle = entry.lifecycle := by
      cases entry.outcome <;> simp
    rw [same]
    constructor
    · rintro ⟨-, -, owner, run, -, events, next, ordered, lease, pause, outcome, wake, process,
        matched, terminal, metrics, -⟩
      exact ⟨owner, run, events, next, ordered, lease, pause,
        fun o ho => ⟨outcome o ho, matched o ho⟩, wake, process, by simpa using terminal, metrics⟩
    · intro h
      exact ⟨trivial, rfl, h.owner, h.run, BackgroundLifecycle.mem_all _, h.events, h.next,
        h.ordered, h.lease, h.pause, fun o ho => (h.outcome o ho).1, h.wake, h.process,
        fun o ho => (h.outcome o ho).2, by simpa using h.terminal, h.metrics, trivial⟩

end PersistedEntry

end AdCoder.BackgroundRuns
