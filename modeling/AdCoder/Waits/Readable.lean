import AdCoder.Waits.WaitRuns

/-!
# What is written can be read

Every record that an operation of one configuration stores passes the reader's
checks of the same configuration, and a copy of it has every field.
-/

namespace AdCoder.Waits

open Foundation

/-! ## Copies -/

def copyCondition (condition : WaitCondition) : WaitCondition :=
  match condition.atTime with
  | none => ⟨condition.kind, none⟩
  | some atTime => ⟨condition.kind, some atTime⟩

def copySource (source : WaitSource) : WaitSource :=
  ⟨source.adapter, source.version, ⟨source.target.kind, source.target.id⟩⟩

def copyPolicy (policy : WaitPolicy) : Except WaitServiceError WaitPolicy :=
  match policy.delivery, policy.pollIntervalMs with
  | .events, _ => .ok ⟨.events, none⟩
  | .poll, none => .error (anonymous .invalidRequest)
  | .poll, some interval => .ok ⟨.poll, some interval⟩

def copyEvent (event : WaitEvent) : WaitEvent :=
  ⟨event.sequence, event.waitId, event.lifecycle, event.timestamp,
    event.evidence.map fun evidence => ⟨evidence.code, evidence.atTime⟩⟩

def copyRecord (record : WaitRecord) : Except WaitServiceError WaitRecord := do
  let policy ← copyPolicy record.policy
  return {
    id := record.id
    lifecycle := record.lifecycle
    source := copySource record.source
    condition := copyCondition record.condition
    owner := ⟨record.owner.kind, record.owner.id⟩
    policy := policy
    deadlineAt := record.deadlineAt
    recovery := record.recovery
    createdAt := record.createdAt
    updatedAt := record.updatedAt
    nextSequence := record.nextSequence
    events := record.events.map copyEvent
    evidence := record.evidence.map fun evidence => ⟨evidence.code, evidence.atTime⟩
    reconciliation := record.reconciliation }

section Copies

variable {limits : WaitServiceLimits}

@[simp] theorem copyCondition_eq (condition : WaitCondition) :
    copyCondition condition = condition := by
  obtain ⟨kind, atTime⟩ := condition
  cases atTime <;> rfl

@[simp] theorem copySource_eq (source : WaitSource) : copySource source = source := rfl

@[simp] theorem copyEvent_eq (event : WaitEvent) : copyEvent event = event := by
  obtain ⟨sequence, waitId, lifecycle, timestamp, evidence⟩ := event
  cases evidence <;> rfl

theorem copyPolicy_eq {policy : WaitPolicy} (valid : validPolicy limits policy = true) :
    copyPolicy policy = .ok policy := by
  obtain ⟨delivery, interval⟩ := policy
  cases delivery with
  | events =>
      cases interval with
      | none => rfl
      | some interval => simp [validPolicy] at valid
  | poll =>
      cases interval with
      | none => simp [validPolicy] at valid
      | some interval => rfl

/-- A copy of a record with a valid policy has every field. -/
theorem copyRecord_eq {record : WaitRecord} (valid : validPolicy limits record.policy = true) :
    copyRecord record = .ok record := by
  have events : record.events.map copyEvent = record.events :=
    (List.map_congr_left fun event _ => copyEvent_eq event).trans (List.map_id _)
  simp only [copyRecord, copyPolicy_eq valid, copyCondition_eq, copySource_eq, events,
    List.map_id']
  rfl

end Copies

/-! ## The reader's checks -/

/-- What `validateRecord` asks of a record, its size apart. -/
structure Valid (limits : WaitServiceLimits) (record : WaitRecord) : Prop where
  named : waitId.test record.id = true
  input : validInput limits record.toWaitSpecification = true
  created : safeTimestamp record.createdAt = true
  updated : safeTimestamp record.updatedAt = true
  next : positiveInteger (.finite record.nextSequence) = true
  fewEvents : record.events.length ≤ limits.maxEventsPerWait
  fewEvidence : record.evidence.length ≤ limits.maxEvidenceEntries
  ordered : validEvents record 0 record.events = true
  evidence : record.evidence.all (safeTimestamp ·.atTime) = true
  witness : (record.reconciliation.all fun witness =>
    safeId.test witness.operationId && safeTimestamp witness.dispatchedAt) = true

section Reader

variable {host : WaitHost} {limits : WaitServiceLimits} {record : WaitRecord}

theorem validateRecord_eq_ok {version : Nat} :
    validateRecord host record version = .ok () ↔ Valid host.limits record ∧
      persistedBytes host.showNumber record version ≤ host.limits.maxPersistedStateBytes := by
  simp only [validateRecord, assertRecordSize, bind_eq_ok, require_eq_ok, Bool.and_eq_true,
    decide_eq_true_eq]
  constructor
  · rintro ⟨_, ⟨named, input⟩, _, ⟨⟨⟨⟨⟨⟨⟨created, updated⟩, next⟩, fewEvents⟩, fewEvidence⟩, ordered⟩,
      evidence⟩, witness⟩, size⟩
    exact ⟨⟨named, input, created, updated, next, fewEvents, fewEvidence, ordered, evidence,
      witness⟩, size⟩
  · rintro ⟨valid, size⟩
    exact ⟨(), ⟨valid.named, valid.input⟩, (),
      ⟨⟨⟨⟨⟨⟨⟨valid.created, valid.updated⟩, valid.next⟩, valid.fewEvents⟩, valid.fewEvidence⟩,
        valid.ordered⟩, valid.evidence⟩, valid.witness⟩, size⟩

/-- Events that come in order still do when the first ones are dropped. -/
theorem validEvents_drop {previous earlier : Nat} {events : List WaitEvent} (count : Nat)
    (h : validEvents record previous events = true) (le : earlier ≤ previous) :
    validEvents record earlier (events.drop count) = true := by
  induction events generalizing previous earlier count with
  | nil => simp [validEvents]
  | cons event later ih =>
      simp only [validEvents, Bool.and_eq_true, decide_eq_true_eq] at h
      obtain ⟨⟨⟨⟨⟨⟨number, above⟩, below⟩, own⟩, time⟩, evidence⟩, rest⟩ := h
      cases count with
      | zero =>
          simp only [List.drop_zero, validEvents, Bool.and_eq_true, decide_eq_true_eq]
          exact ⟨⟨⟨⟨⟨⟨number, by omega⟩, below⟩, own⟩, time⟩, evidence⟩, rest⟩
      | succ count => exact ih count rest (by omega)

/-- The event with the next number comes after the others. -/
theorem validEvents_concat {next : WaitRecord} {event : WaitEvent} {previous : Nat}
    {events : List WaitEvent} (h : validEvents record previous events = true)
    (id : next.id = record.id) (following : next.nextSequence = record.nextSequence + 1)
    (number : event.sequence = record.nextSequence) (own : event.waitId = record.id)
    (safe : JsNumber.isSafeInteger (.finite event.sequence) = true)
    (time : safeTimestamp event.timestamp = true)
    (evidence : event.evidence.all (safeTimestamp ·.atTime) = true)
    (above : previous < record.nextSequence) :
    validEvents next previous (events ++ [event]) = true := by
  induction events generalizing previous with
  | nil =>
      simp only [List.nil_append, validEvents, Bool.and_eq_true, decide_eq_true_eq, beq_iff_eq]
      exact ⟨⟨⟨⟨⟨⟨safe, by omega⟩, by omega⟩, own.trans id.symm⟩, time⟩, evidence⟩, trivial⟩
  | cons first later ih =>
      simp only [validEvents, Bool.and_eq_true, decide_eq_true_eq, beq_iff_eq] at h
      obtain ⟨⟨⟨⟨⟨⟨first_safe, first_above⟩, below⟩, first_own⟩, first_time⟩, first_evidence⟩, rest⟩ := h
      simp only [List.cons_append, validEvents, Bool.and_eq_true, decide_eq_true_eq, beq_iff_eq]
      exact ⟨⟨⟨⟨⟨⟨first_safe, first_above⟩, by omega⟩, first_own.trans id.symm⟩, first_time⟩,
        first_evidence⟩, ih rest below⟩

theorem positiveInteger_of_le {n : Nat} (positive : 0 < n) (small : n ≤ JsNumber.maxSafe) :
    positiveInteger (.finite n) = true := by
  have one : (1 : Rat) ≤ n := by exact_mod_cast positive
  simp [positiveInteger, JsNumber.isSafeInteger, JsNumber.atLeast, small, one]

/-- An appended event keeps a record valid while its number is one that can be read. -/
theorem Valid.append (h : Valid limits record) {lifecycle : WaitLifecycle}
    {timestamp : JsNumber} {evidenceCode : Option WaitEvidenceCode}
    (time : safeTimestamp timestamp = true)
    (next : positiveInteger (.finite (record.nextSequence + 1 : Nat)) = true) :
    Valid limits (append limits record lifecycle timestamp evidenceCode) where
  named := h.named
  input := h.input
  created := h.created
  updated := time
  next := next
  fewEvents := by
    have positive := limits.positive.1
    simp only [Waits.append, List.length_drop, List.length_append, List.length_singleton]
    omega
  fewEvidence := by
    have positive := limits.positive.2.1
    simp only [Waits.append, List.length_drop, List.length_append]
    omega
  ordered := by
    have number := h.next
    have positive : 0 < record.nextSequence := by
      simp only [positiveInteger, JsNumber.atLeast, Bool.and_eq_true, decide_eq_true_eq] at number
      exact_mod_cast number.2
    simp only [positiveInteger, Bool.and_eq_true] at number
    refine validEvents_drop _ (validEvents_concat h.ordered rfl rfl rfl rfl number.1 time ?_ positive)
      (Nat.le_refl 0)
    cases evidenceCode with
    | none => rfl
    | some code => simpa using time
  evidence := by
    have recorded : (record.evidence ++ (evidenceCode.map fun code =>
        WaitEvidence.mk code timestamp).toList).all (safeTimestamp ·.atTime) = true := by
      rw [List.all_append, h.evidence]
      cases evidenceCode with
      | none => rfl
      | some code => simpa using time
    rw [List.all_eq_true] at recorded ⊢
    exact fun evidence member => recorded evidence (List.mem_of_mem_drop member)
  witness := h.witness

/-- A record whose witness and time are replaced. -/
theorem Valid.stamp (h : Valid limits record) {timestamp : JsNumber}
    {witness : Option WaitReconciliation} (time : safeTimestamp timestamp = true)
    (safe : (witness.all fun witness =>
      safeId.test witness.operationId && safeTimestamp witness.dispatchedAt) = true) :
    Valid limits { record with
      updatedAt := timestamp
      reconciliation := witness } :=
  { h with
    updated := time
    ordered := by
      have same : ∀ previous events, validEvents { record with
          updatedAt := timestamp
          reconciliation := witness } previous events = validEvents record previous events := by
        intro previous events
        induction events generalizing previous with
        | nil => rfl
        | cons event later ih => simp only [validEvents, ih]
      rw [same]
      exact h.ordered
    witness := safe }

end Reader

/-! ## What every operation keeps -/

/-- A pending record has one event, a settled one has one more. -/
def Short (record : WaitRecord) : Prop :=
  record.nextSequence ≤ if record.lifecycle = .pending then 2 else 3

/-- A stored record of one configuration. -/
structure Kept (limits : WaitServiceLimits) (showNumber : JsNumber → String)
    (held : VersionedState WaitRecord) : Prop where
  valid : Valid limits held.value
  size : persistedBytes showNumber held.value held.version ≤ limits.maxPersistedStateBytes
  short : Short held.value

section Operations

variable {host : WaitHost} {id operationId : String} {timestamp : JsNumber}
  {current : Option (VersionedState WaitRecord)} {record : WaitRecord}

theorem mutate_size {held : VersionedState WaitRecord}
    {change : Option (VersionedState WaitRecord) → Except WaitServiceError WaitRecord}
    (h : mutate host id (some held) change = .ok record) :
    persistedBytes host.showNumber record (held.version + 1) ≤
      host.limits.maxPersistedStateBytes := by
  simp only [mutate, bind_eq_ok, nextEnvelopeVersion, map_eq_ok, envelopeVersion,
    assertRecordSize, require_eq_ok, decide_eq_true_eq] at h
  obtain ⟨next, -, _, ⟨version, known, rfl⟩, _, size, made⟩ := h
  obtain rfl := pure_eq_ok.mp made
  split_ifs at known
  obtain rfl := Except.ok.inj known
  exact size

/-- Appending to a pending record settles it or is the first event. -/
theorem Short.append {limits : WaitServiceLimits} {lifecycle : WaitLifecycle}
    {evidence : Option WaitEvidenceCode} (h : Short record) (pending : record.lifecycle = .pending)
    (settles : lifecycle ≠ .pending) :
    Short (append limits record lifecycle timestamp evidence) := by
  rw [Short, if_pos pending] at h
  rw [Short, append_lifecycle, if_neg settles, append_nextSequence]
  omega

theorem Short.next (h : Short record) :
    positiveInteger (.finite (record.nextSequence + 1 : Nat)) = true := by
  apply positiveInteger_of_le (Nat.succ_pos _)
  rw [Short] at h
  have small : record.nextSequence ≤ 3 := by split_ifs at h <;> omega
  exact Nat.le_trans (Nat.succ_le_succ small) (by decide)

theorem kept_create {input : CreateWaitInput} {fresh : String}
    (h : create host input fresh timestamp = .ok record) (time : safeTimestamp timestamp = true) :
    Kept host.limits host.showNumber ⟨1, record⟩ := by
  simp only [create, bind_eq_ok, require_eq_ok, assertRecordSize, decide_eq_true_eq] at h
  obtain ⟨_, input_valid, _, -, _, -, _, named, _, size, made⟩ := h
  obtain rfl := pure_eq_ok.mp made
  have one : positiveInteger (.finite (1 : Nat)) = true :=
    positiveInteger_of_le (by decide) (by decide)
  have two : positiveInteger (.finite (2 : Nat)) = true :=
    positiveInteger_of_le (by decide) (by decide)
  refine ⟨?_, size, ?_⟩
  · refine Valid.append ?_ time two
    exact ⟨named, input_valid, time, time, one, Nat.zero_le _, Nat.zero_le _, rfl, rfl, rfl⟩
  · rw [Short, append_lifecycle, if_pos rfl]
    exact Nat.le_refl 2

theorem kept_transition {lifecycle : WaitLifecycle} {evidence : WaitEvidenceCode}
    (h : transition host id lifecycle evidence timestamp current = .ok record)
    (kept : ∀ held ∈ current, Kept host.limits host.showNumber held)
    (time : safeTimestamp timestamp = true) (settles : lifecycle ≠ .pending) :
    ∃ held, current = some held ∧ Kept host.limits host.showNumber ⟨held.version + 1, record⟩ := by
  obtain ⟨version, value, rfl, changed⟩ := transition_cases h
  have before := kept _ rfl
  refine ⟨_, rfl, ?_, mutate_size h, ?_⟩
  · rcases changed with rfl | ⟨_, rfl⟩
    · exact before.valid
    · exact before.valid.append time before.short.next
  · rcases changed with rfl | ⟨pending, rfl⟩
    · exact before.short
    · exact before.short.append pending settles

theorem kept_claim (h : claim host id operationId timestamp current = .ok record)
    (kept : ∀ held ∈ current, Kept host.limits host.showNumber held)
    (time : safeTimestamp timestamp = true) (safe : safeId.test operationId = true) :
    ∃ held, current = some held ∧ Kept host.limits host.showNumber ⟨held.version + 1, record⟩ := by
  obtain ⟨version, value, rfl, pending, -, rfl⟩ := claim_cases h
  have before := kept _ rfl
  refine ⟨_, rfl, before.valid.stamp time ?_, mutate_size h, before.short⟩
  simp [safe, time]

theorem kept_commitResult {observed : WaitLifecycle × Option WaitEvidenceCode}
    (h : commitResult host id operationId observed timestamp current = .ok record)
    (kept : ∀ held ∈ current, Kept host.limits host.showNumber held)
    (time : safeTimestamp timestamp = true) :
    ∃ held, current = some held ∧ Kept host.limits host.showNumber ⟨held.version + 1, record⟩ := by
  have changed := mutate_eq_ok h
  simp only [bind_eq_ok, require_eq_ok, decide_eq_true_eq] at changed
  obtain ⟨value, read, _, -, _, pending, written⟩ := changed
  obtain ⟨version, rfl⟩ := currentRecord_eq_ok read
  have before := kept _ rfl
  have stamped : Valid host.limits { value with
      updatedAt := timestamp
      reconciliation := none } := before.valid.stamp time rfl
  refine ⟨_, rfl, ?_, mutate_size h, ?_⟩
  · split_ifs at written
    · obtain rfl := pure_eq_ok.mp written
      exact stamped
    · obtain rfl := pure_eq_ok.mp written
      exact stamped.append time before.short.next
  · split_ifs at written with waits
    · obtain rfl := pure_eq_ok.mp written
      exact before.short
    · obtain rfl := pure_eq_ok.mp written
      exact Short.append before.short pending waits

end Operations

/-! ## Whole runs -/

section Runs

variable (limits : WaitServiceLimits) (showNumber : JsNumber → String)

/-- A service of the configuration. -/
def Configured (host : WaitHost) : Prop := host.limits = limits ∧ host.showNumber = showNumber

/-- The services have one configuration, clocks give whole milliseconds and drawn operation ids
are identifiers. -/
def Regular : WaitAct → Prop
  | .create host _ _ timestamp | .cancel host _ timestamp =>
      Configured limits showNumber host ∧ safeTimestamp timestamp = true
  | .reconcile _ host _ operationId timestamp => Configured limits showNumber host ∧
      safeTimestamp timestamp = true ∧ safeId.test operationId = true
  | .reply _ _ timestamp => safeTimestamp timestamp = true
  | _ => True

/-- What a reconcile holds for its next write. -/
def ReconcilePhase.Regular : ReconcilePhase → Prop
  | .expiring timestamp => safeTimestamp timestamp = true
  | .claiming timestamp operationId =>
      safeTimestamp timestamp = true ∧ safeId.test operationId = true
  | _ => True

structure Readable (system : WaitSystem) : Prop where
  kept : ∀ id, ∀ held ∈ system.files id, Kept limits showNumber held
  calls : ∀ call, ∀ current ∈ system.calls call,
    Configured limits showNumber current.host ∧ current.phase.Regular

namespace Readable

variable {limits showNumber} {system : WaitSystem}

theorem start : Readable limits showNumber .start where
  kept _ _ held := by cases held
  calls _ _ current := by cases current

theorem setCall (h : Readable limits showNumber system) {call : Nat} {next : Option ReconcileCall}
    (regular : ∀ current ∈ next, Configured limits showNumber current.host ∧
      current.phase.Regular) : Readable limits showNumber (system.setCall call next) where
  kept := h.kept
  calls other current found := by
    by_cases same : other = call
    · subst same
      simp only [WaitSystem.setCall, Function.update_self] at found
      exact regular current found
    · simp only [WaitSystem.setCall, Function.update_of_ne same] at found
      exact h.calls other current found

theorem endCall (h : Readable limits showNumber system) (call : Nat) :
    Readable limits showNumber (system.setCall call none) :=
  h.setCall fun _ found => by cases found

theorem store (h : Readable limits showNumber system) {id : String} {record : WaitRecord}
    (kept : ∃ held, system.files id = some held ∧
      Kept limits showNumber ⟨held.version + 1, record⟩) :
    Readable limits showNumber (system.store id record) where
  kept other now found := by
    obtain ⟨held, stored, good⟩ := kept
    by_cases same : other = id
    · subst same
      simp only [WaitSystem.store, Function.update_self, Option.mem_def, Option.some.injEq] at found
      rw [← found, VersionedFiles.version_eq stored]
      exact good
    · simp only [WaitSystem.store, Function.update_of_ne same] at found
      exact h.kept other now found
  calls := h.calls

/-- A write of what an operation returned, if there was one. -/
theorem written (h : Readable limits showNumber system) {id : String} {admitted : Bool}
    {result : Except WaitServiceError WaitRecord} {after : WaitSystem}
    (kept : ∀ record, result = .ok record → ∃ held, system.files id = some held ∧
      Kept limits showNumber ⟨held.version + 1, record⟩)
    (made : system.written id admitted result = some after) :
    Readable limits showNumber after := by
  obtain ⟨record, returned, rfl⟩ := written_eq_some made
  exact h.store (kept record returned)

theorem getD (h : Readable limits showNumber system) {next : Option WaitSystem}
    (good : ∀ after, next = some after → Readable limits showNumber after) :
    Readable limits showNumber (next.getD system) := by
  cases next with
  | none => exact h
  | some after => exact good after rfl

theorem step (h : Readable limits showNumber system) {made : AdmittedAct}
    (regular : Regular limits showNumber made.act) :
    Readable limits showNumber (system.step made) := by
  obtain ⟨act, admitted⟩ := made
  cases act with
  | create host input fresh timestamp =>
      obtain ⟨⟨rfl, rfl⟩, time⟩ := regular
      simp only [WaitSystem.step]
      split
      · exact h
      · next record created =>
          split_ifs
          · split
            · exact h
            · next files swapped =>
                obtain ⟨-, rfl⟩ := VersionedFiles.swap_eq_some swapped
                refine ⟨fun other now found => ?_, h.calls⟩
                by_cases same : other = record.id
                · subst same
                  simp only [Function.update_self, Option.mem_def, Option.some.injEq] at found
                  rw [← found]
                  exact kept_create created time
                · simp only [Function.update_of_ne same] at found
                  exact h.kept other now found
          · exact h
  | cancel host id timestamp =>
      obtain ⟨⟨rfl, rfl⟩, time⟩ := regular
      exact h.getD fun after made => h.written (fun record returned =>
        kept_transition returned (h.kept id) time (by decide)) made
  | reconcile call host id operationId timestamp =>
      obtain ⟨configured, time, drawn⟩ := regular
      simp only [WaitSystem.step]
      split_ifs
      · exact h
      · split
        · refine h.setCall fun current found => ?_
          obtain rfl := Option.some.inj found
          exact ⟨configured, time⟩
        · refine h.setCall fun current found => ?_
          obtain rfl := Option.some.inj found
          exact ⟨configured, time, drawn⟩
        · exact h
  | expire call =>
      simp only [WaitSystem.step]
      split
      · next host id timestamp found =>
          obtain ⟨⟨rfl, rfl⟩, time⟩ := h.calls call _ found
          exact (h.getD fun after made => h.written (fun record returned =>
            kept_transition returned (h.kept id) time (by decide)) made).endCall call
      · exact h
  | claim call =>
      simp only [WaitSystem.step]
      split
      · next host id timestamp operationId found =>
          obtain ⟨⟨rfl, rfl⟩, time, drawn⟩ := h.calls call _ found
          split
          · exact h.endCall call
          · next record claimed =>
              split_ifs
              · have stored := h.store (kept_claim claimed (h.kept id) time drawn)
                have called : Readable host.limits host.showNumber
                    ((system.store id record).setCall call (some ⟨host, id,
                      .dispatched operationId record.source record.condition⟩)) :=
                  stored.setCall fun current found => by
                    obtain rfl := Option.some.inj found
                    exact ⟨⟨rfl, rfl⟩, trivial⟩
                exact ⟨called.kept, called.calls⟩
              · exact h.endCall call
      · exact h
  | dispatch call =>
      simp only [WaitSystem.step]
      split
      · next host id operationId source condition found =>
          have configured := (h.calls call _ found).1
          split
          · exact h.endCall call
          · have called : Readable limits showNumber
                (system.setCall call (some ⟨host, id, .awaiting operationId⟩)) :=
              h.setCall fun current found => by
                obtain rfl := Option.some.inj found
                exact ⟨configured, trivial⟩
            exact ⟨called.kept, called.calls⟩
      · exact h
  | reply call reply timestamp =>
      simp only [WaitSystem.step]
      split
      · next host id operationId found =>
          obtain ⟨⟨rfl, rfl⟩, -⟩ := h.calls call _ found
          split
          · exact h.endCall call
          · next after committed =>
              have stored : Readable host.limits host.showNumber after := by
                rw [WaitSystem.committed.eq_def] at committed
                split at committed
                · cases committed
                · split at committed
                  · cases committed
                  · exact h.written (fun record returned =>
                      kept_commitResult returned (h.kept id) regular) committed
              exact ⟨(stored.endCall call).kept, (stored.endCall call).calls⟩
      · exact h
  | crash call => exact h.endCall call

theorem of_run {acts : List AdmittedAct}
    (run : Run (Guarded WaitSystem.Steps fun _ made => Regular limits showNumber made.act)
      .start acts system) : Readable limits showNumber system := by
  refine run.invariant ?_ start
  rintro before made after readable ⟨regular, rfl⟩
  exact readable.step regular

end Readable

variable {limits showNumber}

/-- Over any run of services of one configuration, every stored record passes the reader's checks,
and its copy has every field. -/
theorem stored_records_readable {acts : List AdmittedAct} {system : WaitSystem}
    (run : Run (Guarded WaitSystem.Steps fun _ made => Regular limits showNumber made.act)
      .start acts system) {host : WaitHost} (configured : Configured limits showNumber host)
    {id : String} {held : VersionedState WaitRecord} (stored : system.files id = some held) :
    validateRecord host held.value held.version = .ok () ∧
      copyRecord held.value = .ok held.value := by
  obtain ⟨rfl, rfl⟩ := configured
  have kept := (Readable.of_run run).kept id held stored
  refine ⟨validateRecord_eq_ok.mpr ⟨kept.valid, kept.size⟩, ?_⟩
  have input := kept.valid.input
  simp only [validInput, Bool.and_eq_true] at input
  exact copyRecord_eq input.1.2

end Runs

/-- The cancelled wait of one service is read again. -/
theorem stored_records_readable_cancelledScript :
    ∃ held, (cancelledScript.foldl WaitSystem.step .start).files "w" = some held ∧
      validateRecord timerHost held.value held.version = .ok () ∧
        copyRecord held.value = .ok held.value := by
  have regular : ∀ made ∈ cancelledScript, ∀ system : WaitSystem,
      Regular defaultWaitServiceLimits timerHost.showNumber made.act := by
    intro made member _
    simp only [cancelledScript, List.map_cons, List.map_nil, List.mem_cons, List.not_mem_nil,
      or_false] at member
    rcases member with rfl | rfl | rfl | rfl | rfl | rfl <;>
      simp only [Regular, Configured, timerHost, and_true, true_and] <;> decide +kernel
  have run : Run (Guarded WaitSystem.Steps fun _ made =>
      Regular defaultWaitServiceLimits timerHost.showNumber made.act) .start cancelledScript
        (cancelledScript.foldl WaitSystem.step .start) :=
    Run.guarded_foldl_of_forall regular .start
  have stored := cancelledScript_standing.file
  exact ⟨_, stored, stored_records_readable run ⟨rfl, rfl⟩ stored⟩

end AdCoder.Waits
