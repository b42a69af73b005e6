import AdCoder.Waits.Record

/-!
# The wait service

Hosts share one versioned store. Every change of a record is one atomic
mutation; a reconcile is cut where another host may act in between: after it
read the record, after it recorded the dispatch, and while the adapter runs.
-/

namespace AdCoder.Waits

open Foundation

structure WaitSourceAdapter where
  id : String
  version : JsNumber
  validate : WaitTarget → WaitCondition → Bool

/-- One service: its limits, its adapters and how it prints numbers. -/
structure WaitHost where
  limits : WaitServiceLimits
  adapters : List WaitSourceAdapter
  showNumber : JsNumber → String

/-- What an adapter observed, as it returned it. -/
structure WaitObservation where
  lifecycle : String
  evidence : Option String

section Operations

variable (host : WaitHost)

def adapterFor (source : WaitSource) : Except WaitServiceError WaitSourceAdapter :=
  match host.adapters.find? (·.id == source.adapter) with
  | some adapter =>
      if adapter.version = source.version then .ok adapter else .error (anonymous .invalidAdapter)
  | none => .error (anonymous .invalidAdapter)

def assertRecordSize (record : WaitRecord) (id : String) (envelopeVersion : Nat) :
    Except WaitServiceError Unit :=
  require (persistedBytes host.showNumber record envelopeVersion ≤
    host.limits.maxPersistedStateBytes) ⟨.stateTooLarge, some id⟩

def validateRecord (record : WaitRecord) (envelopeVersion : Nat) :
    Except WaitServiceError Unit := do
  require (waitId.test record.id && validInput host.limits record.toWaitSpecification)
    (anonymous .invalidRequest)
  require (safeTimestamp record.createdAt && safeTimestamp record.updatedAt &&
      positiveInteger (.finite record.nextSequence) &&
      record.events.length ≤ host.limits.maxEventsPerWait &&
      record.evidence.length ≤ host.limits.maxEvidenceEntries &&
      validEvents record 0 record.events && record.evidence.all (safeTimestamp ·.atTime) &&
      record.reconciliation.all fun witness =>
        safeId.test witness.operationId && safeTimestamp witness.dispatchedAt)
    ⟨.invalidRequest, some record.id⟩
  assertRecordSize host record record.id envelopeVersion

def envelopeVersion (version : Nat) (id : String) : Except WaitServiceError Nat :=
  if positiveInteger (.finite version) then .ok version else .error ⟨.invalidRequest, some id⟩

/-- `current`: the stored record, if it is valid. -/
def currentRecord (current : Option (VersionedState WaitRecord)) (id : String) :
    Except WaitServiceError WaitRecord :=
  match current with
  | none => .error ⟨.notFound, some id⟩
  | some held => do
      let version ← envelopeVersion held.version id
      validateRecord host held.value version
      return held.value

def currentPending (current : Option (VersionedState WaitRecord)) (id : String) :
    Except WaitServiceError WaitRecord := do
  let value ← currentRecord host current id
  require (value.lifecycle = .pending) ⟨.notPending, some id⟩
  return value

def nextEnvelopeVersion (current : Option (VersionedState WaitRecord)) (id : String) :
    Except WaitServiceError Nat :=
  match current with
  | none => .ok 1
  | some held => (envelopeVersion held.version id).map (· + 1)

/-- `mutate`: the record to write in place of the stored one. -/
def mutate (id : String) (current : Option (VersionedState WaitRecord))
    (change : Option (VersionedState WaitRecord) → Except WaitServiceError WaitRecord) :
    Except WaitServiceError WaitRecord := do
  let next ← change current
  let version ← nextEnvelopeVersion current id
  assertRecordSize host next id version
  return next

/-- `create`: the first record of a wait. `fresh` is the id drawn for it. -/
def create (input : CreateWaitInput) (fresh : String) (timestamp : JsNumber) :
    Except WaitServiceError WaitRecord := do
  require (validInput host.limits input.toWaitSpecification) (anonymous .invalidRequest)
  let adapter ← adapterFor host input.source
  require (adapter.validate input.source.target input.condition) (anonymous .invalidAdapter)
  let id := input.id.getD fresh
  require (waitId.test id) ⟨.invalidRequest, some id⟩
  let initial : WaitRecord := {
    input.toWaitSpecification with
    id := id
    lifecycle := .pending
    createdAt := timestamp
    updatedAt := timestamp
    nextSequence := 1
    events := []
    evidence := []
    reconciliation := none }
  let record := append host.limits initial .pending timestamp none
  assertRecordSize host record id 1
  return record

/-- `transition`. A witness in flight is kept. -/
def transition (id : String) (lifecycle : WaitLifecycle) (evidence : WaitEvidenceCode)
    (timestamp : JsNumber) (current : Option (VersionedState WaitRecord)) :
    Except WaitServiceError WaitRecord :=
  mutate host id current fun current => do
    let value ← currentRecord host current id
    if value.lifecycle.isTerminal then
      if value.lifecycle = lifecycle then return value else throw ⟨.notPending, some id⟩
    else return append host.limits value lifecycle timestamp (some evidence)

def cancel (id : String) (timestamp : JsNumber) (current : Option (VersionedState WaitRecord)) :
    Except WaitServiceError WaitRecord :=
  transition host id .cancelled .cancelled timestamp current

/-- The poll interval has not passed since the last update. -/
def tooSoon (record : WaitRecord) (timestamp : JsNumber) : Bool :=
  match record.policy.delivery, record.policy.pollIntervalMs, record.updatedAt, timestamp with
  | .poll, some (.finite interval), .finite updated, .finite now => now < updated + interval
  | .poll, _, _, .infinity negative => negative
  | _, _, _, _ => false

/-- The deadline has been reached. -/
def overdue (record : WaitRecord) (timestamp : JsNumber) : Bool :=
  match record.deadlineAt with
  | some (.finite deadline) => timestamp.atLeast deadline
  | _ => false

/-- What a reconcile does after it read the record. -/
inductive ReconcilePlan where
  | returns (record : WaitRecord)
  | expires
  | claims

/-- The first part of `reconcile`. -/
def planReconcile (id : String) (timestamp : JsNumber)
    (current : Option (VersionedState WaitRecord)) : Except WaitServiceError ReconcilePlan := do
  require (waitId.test id) ⟨.invalidRequest, some id⟩
  let record ← currentRecord host current id
  if record.lifecycle.isTerminal then return .returns record
  else if overdue record timestamp then return .expires
  else if record.reconciliation.isSome then throw ⟨.reconcileUncertain, some id⟩
  else if tooSoon record timestamp then return .returns record
  else return .claims

/-- The checkpoint of a dispatch. -/
def claim (id operationId : String) (timestamp : JsNumber)
    (current : Option (VersionedState WaitRecord)) : Except WaitServiceError WaitRecord :=
  mutate host id current fun current => do
    let value ← currentPending host current id
    require value.reconciliation.isNone ⟨.reconcileUncertain, some id⟩
    return { value with
      updatedAt := timestamp
      reconciliation := some ⟨operationId, timestamp⟩ }

def WaitLifecycle.observed : List WaitLifecycle :=
  [.pending, .satisfied, .failed, .unavailable, .timedOut, .stalled]

def WaitEvidenceCode.observed : List WaitEvidenceCode :=
  [.conditionMet, .conditionFailed, .sourceUnavailable, .deadlineExceeded, .sourceStalled]

/-- `validateObservation`. -/
def validateObservation (observation : WaitObservation) :
    Except WaitServiceError (WaitLifecycle × Option WaitEvidenceCode) :=
  match WaitLifecycle.observed.find? (·.text == observation.lifecycle), observation.evidence with
  | none, _ => .error (anonymous .invalidAdapter)
  | some lifecycle, none => .ok (lifecycle, none)
  | some lifecycle, some text =>
      match WaitEvidenceCode.observed.find? (·.text == text) with
      | none => .error (anonymous .invalidAdapter)
      | some evidence => .ok (lifecycle, some evidence)

/-- The commit of a result, which only the operation that was dispatched may make. -/
def commitResult (id operationId : String) (observed : WaitLifecycle × Option WaitEvidenceCode)
    (timestamp : JsNumber) (current : Option (VersionedState WaitRecord)) :
    Except WaitServiceError WaitRecord :=
  mutate host id current fun current => do
    let value ← currentRecord host current id
    require (value.reconciliation.any (·.operationId == operationId))
      ⟨.reconcileUncertain, some id⟩
    require (value.lifecycle = .pending) ⟨.reconcileUncertain, some id⟩
    let next := { value with
      updatedAt := timestamp
      reconciliation := none }
    if observed.1 = .pending then return next
    else return append host.limits next observed.1 timestamp observed.2

end Operations

/-! ## What a mutation does -/

section Mutations

variable {host : WaitHost} {id operationId : String} {timestamp : JsNumber}
  {current : Option (VersionedState WaitRecord)} {record : WaitRecord}

theorem mutate_eq_ok {change : Option (VersionedState WaitRecord) → Except WaitServiceError WaitRecord}
    (h : mutate host id current change = .ok record) : change current = .ok record := by
  simp only [mutate, bind_eq_ok] at h
  obtain ⟨next, changed, _, _, _, _, made⟩ := h
  obtain rfl := pure_eq_ok.mp made
  exact changed

theorem currentRecord_eq_ok {value : WaitRecord} (h : currentRecord host current id = .ok value) :
    ∃ version, current = some ⟨version, value⟩ := by
  cases current with
  | none => cases h
  | some held =>
      simp only [currentRecord, bind_eq_ok] at h
      obtain ⟨_, _, _, _, made⟩ := h
      obtain rfl := pure_eq_ok.mp made
      exact ⟨held.version, rfl⟩

theorem assertRecordSize_eq_ok {version : Nat} :
    assertRecordSize host record id version = .ok () ↔
      persistedBytes host.showNumber record version ≤ host.limits.maxPersistedStateBytes := by
  rw [assertRecordSize, require_eq_ok, decide_eq_true_iff]

theorem assertRecordSize_of_valid {version : Nat}
    (valid : validateRecord host record version = .ok ()) :
    assertRecordSize host record id version = .ok () := by
  obtain ⟨_, -, _, -, size⟩ := by simpa only [validateRecord, bind_eq_ok] using valid
  exact assertRecordSize_eq_ok.mpr (assertRecordSize_eq_ok.mp size)

theorem currentRecord_of_valid {version : Nat}
    (counted : envelopeVersion version id = .ok version)
    (valid : validateRecord host record version = .ok ()) :
    currentRecord host (some ⟨version, record⟩) id = .ok record :=
  bind_eq_ok.mpr ⟨_, counted, bind_eq_ok.mpr ⟨_, valid, rfl⟩⟩

/-- A change to a valid record is made. -/
theorem mutate_of_valid {version : Nat}
    {change : Option (VersionedState WaitRecord) → Except WaitServiceError WaitRecord}
    (changed : change current = .ok record) (counted : nextEnvelopeVersion current id = .ok version)
    (valid : validateRecord host record version = .ok ()) :
    mutate host id current change = .ok record :=
  bind_eq_ok.mpr ⟨_, changed, bind_eq_ok.mpr ⟨_, counted,
    bind_eq_ok.mpr ⟨_, assertRecordSize_of_valid valid, rfl⟩⟩⟩

/-- A transition settles a pending record, or leaves a settled one as it is. -/
theorem transition_cases {lifecycle : WaitLifecycle} {evidence : WaitEvidenceCode}
    (h : transition host id lifecycle evidence timestamp current = .ok record) :
    ∃ version value, current = some ⟨version, value⟩ ∧
      (record = value ∨ value.lifecycle = .pending ∧
        record = append host.limits value lifecycle timestamp (some evidence)) := by
  have changed := mutate_eq_ok h
  simp only [bind_eq_ok] at changed
  obtain ⟨value, read, written⟩ := changed
  obtain ⟨version, rfl⟩ := currentRecord_eq_ok read
  refine ⟨version, value, rfl, ?_⟩
  by_cases terminal : value.lifecycle.isTerminal = true
  · rw [if_pos terminal] at written
    split_ifs at written
    exact Or.inl (pure_eq_ok.mp written).symm
  · rw [if_neg terminal] at written
    refine Or.inr ⟨?_, (pure_eq_ok.mp written).symm⟩
    cases held : value.lifecycle with
    | pending => rfl
    | _ => simp [held, WaitLifecycle.isTerminal] at terminal

/-- A claim records the dispatch on a pending record without a witness. -/
theorem claim_cases (h : claim host id operationId timestamp current = .ok record) :
    ∃ version value, current = some ⟨version, value⟩ ∧ value.lifecycle = .pending ∧
      value.reconciliation = none ∧ record = { value with
        updatedAt := timestamp
        reconciliation := some ⟨operationId, timestamp⟩ } := by
  have changed := mutate_eq_ok h
  simp only [currentPending, bind_eq_ok, require_eq_ok] at changed
  obtain ⟨value, ⟨_, read, _, pending, held⟩, _, unclaimed, made⟩ := changed
  obtain rfl := pure_eq_ok.mp held
  obtain ⟨version, rfl⟩ := currentRecord_eq_ok read
  exact ⟨version, _, rfl, by simpa using pending, by simpa using unclaimed,
    (pure_eq_ok.mp made).symm⟩

/-- A commit takes the witness of its own operation out of a pending record. -/
theorem commitResult_cases {observed : WaitLifecycle × Option WaitEvidenceCode}
    (h : commitResult host id operationId observed timestamp current = .ok record) :
    ∃ version value witness, current = some ⟨version, value⟩ ∧ value.lifecycle = .pending ∧
      value.reconciliation = some witness ∧ witness.operationId = operationId ∧
      (record = { value with updatedAt := timestamp, reconciliation := none } ∨
        record = append host.limits { value with updatedAt := timestamp, reconciliation := none }
          observed.1 timestamp observed.2) := by
  have changed := mutate_eq_ok h
  simp only [bind_eq_ok, require_eq_ok] at changed
  obtain ⟨value, read, _, own, _, pending, written⟩ := changed
  obtain ⟨version, rfl⟩ := currentRecord_eq_ok read
  obtain ⟨witness, held, same⟩ := Option.any_eq_true _ _ |>.mp own
  refine ⟨version, value, witness, rfl, by simpa using pending, held, by simpa using same, ?_⟩
  split_ifs at written
  · exact Or.inl (pure_eq_ok.mp written).symm
  · exact Or.inr (pure_eq_ok.mp written).symm

end Mutations

end AdCoder.Waits
