import AdCoder.Foundation.Json
import AdCoder.Foundation.Runs
import AdCoder.Foundation.Versioned

/-!
# The durable record of a wait

A wait observes one condition of an external source. Its record has the events
of its lifecycle, numbered from one, and the witness of a dispatched operation
whose result is not known.
-/

namespace AdCoder.Waits

open Foundation

inductive WaitLifecycle where
  | pending
  | satisfied
  | failed
  | unavailable
  | timedOut
  | stalled
  | cancelled
  deriving DecidableEq

def WaitLifecycle.text : WaitLifecycle → String
  | pending => "pending"
  | satisfied => "satisfied"
  | failed => "failed"
  | unavailable => "unavailable"
  | timedOut => "timed_out"
  | stalled => "stalled"
  | cancelled => "cancelled"

/-- `TERMINAL`. -/
def WaitLifecycle.isTerminal : WaitLifecycle → Bool
  | pending => false
  | _ => true

inductive WaitEvidenceCode where
  | conditionMet
  | conditionFailed
  | sourceUnavailable
  | deadlineExceeded
  | sourceStalled
  | cancelled
  | reconcileUncertain
  deriving DecidableEq

def WaitEvidenceCode.text : WaitEvidenceCode → String
  | conditionMet => "condition_met"
  | conditionFailed => "condition_failed"
  | sourceUnavailable => "source_unavailable"
  | deadlineExceeded => "deadline_exceeded"
  | sourceStalled => "source_stalled"
  | cancelled => "cancelled"
  | reconcileUncertain => "reconcile_uncertain"

structure WaitEvidence where
  code : WaitEvidenceCode
  atTime : JsNumber
  deriving DecidableEq

structure WaitTarget where
  kind : String
  id : String
  deriving DecidableEq

structure WaitCondition where
  kind : String
  atTime : Option JsNumber
  deriving DecidableEq

structure WaitSource where
  adapter : String
  version : JsNumber
  target : WaitTarget
  deriving DecidableEq

inductive WaitOwnerKind where
  | run
  | session
  | operator
  deriving DecidableEq

def WaitOwnerKind.text : WaitOwnerKind → String
  | run => "run"
  | session => "session"
  | operator => "operator"

structure WaitOwner where
  kind : WaitOwnerKind
  id : String
  deriving DecidableEq

inductive WaitDelivery where
  | events
  | poll
  deriving DecidableEq

def WaitDelivery.text : WaitDelivery → String
  | events => "events"
  | poll => "poll"

structure WaitPolicy where
  delivery : WaitDelivery
  pollIntervalMs : Option JsNumber
  deriving DecidableEq

inductive WaitRecoveryAction where
  | inspect
  | retry
  | replace
  deriving DecidableEq

def WaitRecoveryAction.text : WaitRecoveryAction → String
  | inspect => "inspect"
  | retry => "retry"
  | replace => "replace"

/-- The part of a record that its creator gives. -/
structure WaitSpecification where
  source : WaitSource
  condition : WaitCondition
  owner : WaitOwner
  policy : WaitPolicy
  deadlineAt : Option JsNumber
  recovery : WaitRecoveryAction
  deriving DecidableEq

structure CreateWaitInput extends WaitSpecification where
  id : Option String

structure WaitEvent where
  sequence : Nat
  waitId : String
  lifecycle : WaitLifecycle
  timestamp : JsNumber
  evidence : Option WaitEvidence
  deriving DecidableEq

/-- The witness of a dispatched operation. -/
structure WaitReconciliation where
  operationId : String
  dispatchedAt : JsNumber
  deriving DecidableEq

structure WaitRecord extends WaitSpecification where
  id : String
  lifecycle : WaitLifecycle
  createdAt : JsNumber
  updatedAt : JsNumber
  nextSequence : Nat
  events : List WaitEvent
  evidence : List WaitEvidence
  reconciliation : Option WaitReconciliation
  deriving DecidableEq

/-- The ceilings of a service, checked by its constructor. -/
structure WaitServiceLimits where
  maxEventsPerWait : Nat
  maxEvidenceEntries : Nat
  maxPersistedStateBytes : Nat
  minPollIntervalMs : Nat
  positive : 0 < maxEventsPerWait ∧ 0 < maxEvidenceEntries ∧ 0 < maxPersistedStateBytes ∧
    0 < minPollIntervalMs

/-- `DEFAULT_WAIT_SERVICE_LIMITS`. -/
def defaultWaitServiceLimits : WaitServiceLimits :=
  ⟨32, 8, 64 * 1024, 100, by decide⟩

inductive WaitServiceErrorCode where
  | invalidRequest
  | invalidAdapter
  | notFound
  | alreadyExists
  | notPending
  | stateTooLarge
  | reconcileUncertain
  deriving DecidableEq

structure WaitServiceError where
  code : WaitServiceErrorCode
  waitId : Option String
  deriving DecidableEq

/-- An error without a wait id. -/
def anonymous (code : WaitServiceErrorCode) : WaitServiceError := ⟨code, none⟩

/-! ## The text of a record -/

section Text

variable (showNumber : JsNumber → String)

def WaitEvidence.toJson (evidence : WaitEvidence) : Json :=
  .obj [("code", .str evidence.code.text), ("at", .num evidence.atTime)]

/-- A property that is left out where its value is undefined. -/
def present (name : String) (value : Option Json) : List (String × Json) :=
  (value.map fun value => (name, value)).toList

def WaitEvent.toJson (event : WaitEvent) : Json :=
  .obj ([("version", .num 1), ("sequence", .num (.finite event.sequence)),
    ("waitId", .str event.waitId), ("lifecycle", .str event.lifecycle.text),
    ("timestamp", .num event.timestamp)] ++ present "evidence" (event.evidence.map (·.toJson)))

def WaitRecord.toJson (record : WaitRecord) : Json :=
  .obj ([("version", .num 1), ("id", .str record.id),
    ("lifecycle", .str record.lifecycle.text),
    ("source", .obj [("adapter", .str record.source.adapter),
      ("version", .num record.source.version),
      ("target", .obj [("kind", .str record.source.target.kind),
        ("id", .str record.source.target.id)])]),
    ("condition", .obj ([("kind", .str record.condition.kind)] ++
      present "at" (record.condition.atTime.map .num))),
    ("owner", .obj [("kind", .str record.owner.kind.text), ("id", .str record.owner.id)]),
    ("policy", .obj ([("delivery", .str record.policy.delivery.text)] ++
      present "pollIntervalMs" (record.policy.pollIntervalMs.map .num)))] ++
    present "deadlineAt" (record.deadlineAt.map .num) ++
    [("recovery", .str record.recovery.text), ("createdAt", .num record.createdAt),
      ("updatedAt", .num record.updatedAt),
      ("nextSequence", .num (.finite record.nextSequence)),
      ("events", .arr (record.events.map (·.toJson))),
      ("evidence", .arr (record.evidence.map (·.toJson)))] ++
    present "reconciliation" (record.reconciliation.map fun witness => .obj [
      ("operationId", .str witness.operationId), ("dispatchedAt", .num witness.dispatchedAt)]))

/-- The bytes of a record with its envelope and the newline after it. -/
def persistedBytes (record : WaitRecord) (envelopeVersion : Nat) : Nat :=
  byteLength (Json.stringify showNumber (.obj [("version", .num (.finite envelopeVersion)),
    ("value", record.toJson)])) + 1

end Text

/-! ## Checks -/

/-- `SAFE_ID`. -/
def safeId : Regex := .sequence [.atStart, .rep true 1 (some 128) (.one fun x =>
  Regex.isAlnum x || x == '.' || x == '_' || x == ':' || x == '-'), .atEnd]

/-- `WAIT_ID`. -/
def waitId : Regex := .sequence [.atStart, .rep true 1 (some 64) (.one fun x =>
  Regex.isAlnum x || x == '_' || x == '-'), .atEnd]

/-- `SAFE_KIND`. -/
def safeKind : Regex := .sequence [.atStart, .one Regex.isLetter,
  .rep true 0 (some 63) (.one fun x => Regex.isAlnum x || x == '_' || x == '.' || x == '-'), .atEnd]

def safeTimestamp (value : JsNumber) : Bool := value.isSafeInteger && value.atLeast 0

def positiveInteger (value : JsNumber) : Bool := value.isSafeInteger && value.atLeast 1

def validSource (source : WaitSource) : Bool :=
  safeId.test source.adapter && positiveInteger source.version &&
    safeKind.test source.target.kind && safeId.test source.target.id

def validPolicy (limits : WaitServiceLimits) (policy : WaitPolicy) : Bool :=
  match policy.delivery, policy.pollIntervalMs with
  | .poll, some interval => interval.isSafeInteger && interval.atLeast limits.minPollIntervalMs
  | .poll, none => false
  | .events, interval => interval.isNone

/-- `validateInput`. -/
def validInput (limits : WaitServiceLimits) (input : WaitSpecification) : Bool :=
  validSource input.source &&
    (safeKind.test input.condition.kind && input.condition.atTime.all safeTimestamp) &&
    safeId.test input.owner.id && validPolicy limits input.policy &&
    input.deadlineAt.all positiveInteger

/-- The events of a record are of this wait, in order and before the next one. -/
def validEvents (record : WaitRecord) : Nat → List WaitEvent → Bool
  | _, [] => true
  | previousSequence, event :: later =>
      JsNumber.isSafeInteger (.finite event.sequence) &&
        decide (previousSequence < event.sequence) &&
        decide (event.sequence < record.nextSequence) && event.waitId == record.id &&
        safeTimestamp event.timestamp && event.evidence.all (safeTimestamp ·.atTime) &&
        validEvents record event.sequence later

/-! ## Events -/

/-- Append an event of the lifecycle; the oldest entries beyond the limits go. -/
def append (limits : WaitServiceLimits) (record : WaitRecord) (lifecycle : WaitLifecycle)
    (timestamp : JsNumber) (evidenceCode : Option WaitEvidenceCode) : WaitRecord :=
  let evidence := evidenceCode.map fun code => WaitEvidence.mk code timestamp
  let events := record.events ++
    [⟨record.nextSequence, record.id, lifecycle, timestamp, evidence⟩]
  let recorded := record.evidence ++ evidence.toList
  { record with
    lifecycle := lifecycle
    updatedAt := timestamp
    nextSequence := record.nextSequence + 1
    events := events.drop (events.length - limits.maxEventsPerWait)
    evidence := recorded.drop (recorded.length - limits.maxEvidenceEntries) }

/-- The events are numbered one by one up to the next number. -/
structure Contiguous (record : WaitRecord) : Prop where
  room : record.events.length < record.nextSequence
  numbers : record.events.map (·.sequence) =
    List.range' (record.nextSequence - record.events.length) record.events.length

section Append

variable {limits : WaitServiceLimits} {record : WaitRecord} {lifecycle : WaitLifecycle}
  {timestamp : JsNumber} {evidenceCode : Option WaitEvidenceCode}

@[simp] theorem append_lifecycle :
    (append limits record lifecycle timestamp evidenceCode).lifecycle = lifecycle := rfl

@[simp] theorem append_id :
    (append limits record lifecycle timestamp evidenceCode).id = record.id := rfl

@[simp] theorem append_nextSequence :
    (append limits record lifecycle timestamp evidenceCode).nextSequence =
      record.nextSequence + 1 := rfl

/-- What is appended comes next, whatever is dropped before it. -/
theorem Contiguous.append (h : Contiguous record) :
    Contiguous (append limits record lifecycle timestamp evidenceCode) := by
  have room := h.room
  have numbers : (record.events ++ [WaitEvent.mk record.nextSequence record.id lifecycle timestamp
      (evidenceCode.map fun code => ⟨code, timestamp⟩)]).map (·.sequence) =
        List.range' (record.nextSequence - record.events.length) (record.events.length + 1) := by
    rw [List.map_append, h.numbers, List.range'_1_concat]
    simp only [List.map_cons, List.map_nil]
    congr
    omega
  constructor
  · simp only [Waits.append, List.length_drop, List.length_append, List.length_singleton]
    omega
  · simp only [Waits.append, List.map_drop, numbers, List.drop_range', List.length_drop,
      List.length_append, List.length_singleton]
    congr 1
    omega

/-- Events with old numbers are old. -/
theorem mem_append_events {event : WaitEvent}
    (member : event ∈ (append limits record lifecycle timestamp evidenceCode).events)
    (old : event.sequence < record.nextSequence) : event ∈ record.events := by
  rcases List.mem_append.mp (List.mem_of_mem_drop member) with before | new
  · exact before
  · obtain rfl := List.mem_singleton.mp new
    exact absurd old (Nat.lt_irrefl _)

end Append

end AdCoder.Waits
