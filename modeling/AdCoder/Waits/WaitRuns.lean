import AdCoder.Waits.Service
import Mathlib.Data.List.Induction

/-!
# Waits are safe over whole runs

Any number of reconciles of any hosts run at once, and each may be lost at any
time. A witness stands from the dispatch of an operation to the commit of its
result, so a wait has one operation that is not resolved at most.
-/

namespace AdCoder.Waits

open Foundation

/-! ## The system -/

/-- Where a reconcile stands between two accesses. -/
inductive ReconcilePhase where
  | expiring (timestamp : JsNumber)
  | claiming (timestamp : JsNumber) (operationId : String)
  | dispatched (operationId : String) (source : WaitSource) (condition : WaitCondition)
  | awaiting (operationId : String)

structure ReconcileCall where
  host : WaitHost
  waitId : String
  phase : ReconcilePhase

inductive DispatchKind where
  | claimed
  | called
  | resolved
  deriving DecidableEq

/-- What was done with an operation. -/
structure DispatchEntry where
  waitId : String
  operationId : String
  kind : DispatchKind
  deriving DecidableEq

/-- The stored records, the reconciles under way, and a journal that no code reads. -/
structure WaitSystem where
  files : VersionedFiles String WaitRecord
  calls : Nat → Option ReconcileCall
  journal : List DispatchEntry

inductive AdapterReply where
  | threw
  | returned (observation : WaitObservation)

inductive WaitAct where
  | create (host : WaitHost) (input : CreateWaitInput) (fresh : String) (timestamp : JsNumber)
  | cancel (host : WaitHost) (id : String) (timestamp : JsNumber)
  | reconcile (call : Nat) (host : WaitHost) (id operationId : String) (timestamp : JsNumber)
  | expire (call : Nat)
  | claim (call : Nat)
  | dispatch (call : Nat)
  | reply (call : Nat) (reply : AdapterReply) (timestamp : JsNumber)
  | crash (call : Nat)

/-- An act, and whether the storage takes its write. -/
structure AdmittedAct where
  act : WaitAct
  admitted : Bool

namespace WaitSystem

/-- Nothing is stored and nothing runs. -/
def start : WaitSystem := ⟨fun _ => none, fun _ => none, []⟩

/-- The stored record after a mutation. -/
def store (system : WaitSystem) (id : String) (record : WaitRecord) : WaitSystem :=
  { system with
    files := Function.update system.files id (some ⟨system.files.version id + 1, record⟩) }

def setCall (system : WaitSystem) (call : Nat) (next : Option ReconcileCall) : WaitSystem :=
  { system with calls := Function.update system.calls call next }

/-- Write what a mutation returned, if it returned and the storage takes it. -/
def written (system : WaitSystem) (id : String) (admitted : Bool)
    (result : Except WaitServiceError WaitRecord) : Option WaitSystem :=
  match result with
  | .error _ => none
  | .ok record => if admitted then some (system.store id record) else none

/-- Commit what the adapter replied. -/
def committed (system : WaitSystem) (host : WaitHost) (id operationId : String) (admitted : Bool)
    (timestamp : JsNumber) (reply : AdapterReply) : Option WaitSystem :=
  match reply with
  | .threw => none
  | .returned observation =>
      match validateObservation observation with
      | .error _ => none
      | .ok observed => system.written id admitted
          (commitResult host id operationId observed timestamp (system.files id))

def step (system : WaitSystem) (made : AdmittedAct) : WaitSystem :=
  match made.act with
  | .create host input fresh timestamp =>
      match Waits.create host input fresh timestamp with
      | .error _ => system
      | .ok record =>
          if made.admitted then
            match system.files.swap record.id 0 record with
            | none => system
            | some files => { system with files := files }
          else system
  | .cancel host id timestamp =>
      (system.written id made.admitted (Waits.cancel host id timestamp (system.files id))).getD
        system
  | .reconcile call host id operationId timestamp =>
      if (system.calls call).isSome then system
      else match planReconcile host id timestamp (system.files id) with
        | .ok .expires => system.setCall call (some ⟨host, id, .expiring timestamp⟩)
        | .ok .claims => system.setCall call (some ⟨host, id, .claiming timestamp operationId⟩)
        | _ => system
  | .expire call =>
      match system.calls call with
      | some ⟨host, id, .expiring timestamp⟩ =>
          ((system.written id made.admitted (transition host id .timedOut .deadlineExceeded
            timestamp (system.files id))).getD system).setCall call none
      | _ => system
  | .claim call =>
      match system.calls call with
      | some ⟨host, id, .claiming timestamp operationId⟩ =>
          match Waits.claim host id operationId timestamp (system.files id) with
          | .error _ => system.setCall call none
          | .ok record =>
              if made.admitted then
                { (system.store id record).setCall call (some ⟨host, id,
                    .dispatched operationId record.source record.condition⟩) with
                  journal := system.journal ++ [⟨id, operationId, .claimed⟩] }
              else system.setCall call none
      | _ => system
  | .dispatch call =>
      match system.calls call with
      | some ⟨host, id, .dispatched operationId source _⟩ =>
          match adapterFor host source with
          | .error _ => system.setCall call none
          | .ok _ => { system.setCall call (some ⟨host, id, .awaiting operationId⟩) with
              journal := system.journal ++ [⟨id, operationId, .called⟩] }
      | _ => system
  | .reply call reply timestamp =>
      match system.calls call with
      | some ⟨host, id, .awaiting operationId⟩ =>
          match system.committed host id operationId made.admitted timestamp reply with
          | none => system.setCall call none
          | some next => { next.setCall call none with
              journal := system.journal ++ [⟨id, operationId, .resolved⟩] }
      | _ => system
  | .crash call => system.setCall call none

abbrev Steps (system : WaitSystem) (made : AdmittedAct) (next : WaitSystem) : Prop :=
  next = system.step made

end WaitSystem

/-! ### Acts that succeed -/

namespace WaitSystem

variable {host : WaitHost} {id operationId fresh : String} {timestamp : JsNumber}
  {record : WaitRecord} {system : WaitSystem} {call : Nat} {input : CreateWaitInput}
  {admitted : Bool}

theorem store_self : (system.store id record).files id =
    some ⟨system.files.version id + 1, record⟩ := by
  simp [store]

theorem step_create {files : VersionedFiles String WaitRecord}
    (created : create host input fresh timestamp = .ok record)
    (swapped : system.files.swap record.id 0 record = some files) :
    system.step ⟨.create host input fresh timestamp, true⟩ = { system with files := files } := by
  simp only [step, created, swapped, if_true]

theorem step_reconcile (free : system.calls call = none)
    (planned : planReconcile host id timestamp (system.files id) = .ok .claims) :
    system.step ⟨.reconcile call host id operationId timestamp, admitted⟩ =
      system.setCall call (some ⟨host, id, .claiming timestamp operationId⟩) := by
  simp [step, free, planned]

theorem step_claim (held : system.calls call = some ⟨host, id, .claiming timestamp operationId⟩)
    (claimed : Waits.claim host id operationId timestamp (system.files id) = .ok record) :
    system.step ⟨.claim call, true⟩ =
      { (system.store id record).setCall call
          (some ⟨host, id, .dispatched operationId record.source record.condition⟩) with
        journal := system.journal ++ [⟨id, operationId, .claimed⟩] } := by
  simp only [step, held, claimed, if_true]

theorem step_dispatch {source : WaitSource} {condition : WaitCondition} {adapter : WaitSourceAdapter}
    (held : system.calls call = some ⟨host, id, .dispatched operationId source condition⟩)
    (found : adapterFor host source = .ok adapter) :
    system.step ⟨.dispatch call, admitted⟩ =
      { system.setCall call (some ⟨host, id, .awaiting operationId⟩) with
        journal := system.journal ++ [⟨id, operationId, .called⟩] } := by
  simp only [step, held, found]

theorem step_cancel (cancelled : Waits.cancel host id timestamp (system.files id) = .ok record) :
    system.step ⟨.cancel host id timestamp, true⟩ = system.store id record := by
  simp [step, written, cancelled]

/-- A result that may not be committed ends its reconcile. -/
theorem step_reply {observation : WaitObservation} {observed : WaitLifecycle × Option WaitEvidenceCode}
    {error : WaitServiceError} (held : system.calls call = some ⟨host, id, .awaiting operationId⟩)
    (valid : validateObservation observation = .ok observed)
    (refused : commitResult host id operationId observed timestamp (system.files id) =
      .error error) :
    system.step ⟨.reply call (.returned observation) timestamp, admitted⟩ =
      system.setCall call none := by
  simp only [step, held, committed, valid, written, refused]

end WaitSystem

/-! ## Operations of the journal -/

/-- The operation that is not resolved, and whether its adapter was called, after an entry that
may come next. -/
def advance : Option (String × Bool) → DispatchEntry → Option (Option (String × Bool))
  | none, ⟨_, operationId, .claimed⟩ => some (some (operationId, false))
  | some (dispatched, false), ⟨_, operationId, .called⟩ =>
      if operationId = dispatched then some (some (dispatched, true)) else none
  | some (dispatched, true), ⟨_, operationId, .resolved⟩ =>
      if operationId = dispatched then some none else none
  | _, _ => none

/-- The entries of one wait. -/
def entriesOf (id : String) (journal : List DispatchEntry) : List DispatchEntry :=
  journal.filter (·.waitId == id)

/-- The open operation after the entries, if each may follow the ones before. -/
def replay (entries : List DispatchEntry) : Option (Option (String × Bool)) :=
  entries.foldlM advance none

section Replay

variable {entries first rest middle last : List DispatchEntry} {id operationId : String}
  {opened : Option (String × Bool)}

theorem advance_cases {entry : DispatchEntry} {next : Option (String × Bool)}
    (h : advance opened entry = some next) :
    (opened = none ∧ entry.kind = .claimed ∧ next = some (entry.operationId, false)) ∨
      (opened = some (entry.operationId, false) ∧ entry.kind = .called ∧
        next = some (entry.operationId, true)) ∨
      (opened = some (entry.operationId, true) ∧ entry.kind = .resolved ∧ next = none) := by
  obtain ⟨waitId, operation, kind⟩ := entry
  cases opened with
  | none =>
      cases kind with
      | claimed => exact Or.inl ⟨rfl, rfl, (Option.some.inj h).symm⟩
      | _ => cases h
  | some current =>
      obtain ⟨dispatched, called⟩ := current
      cases called with
      | false =>
          cases kind with
          | called =>
              simp only [advance] at h
              split_ifs at h with same
              subst same
              exact Or.inr (Or.inl ⟨rfl, rfl, (Option.some.inj h).symm⟩)
          | _ => cases h
      | true =>
          cases kind with
          | resolved =>
              simp only [advance] at h
              split_ifs at h with same
              subst same
              exact Or.inr (Or.inr ⟨rfl, rfl, (Option.some.inj h).symm⟩)
          | _ => cases h

theorem replay_append (more : List DispatchEntry) :
    replay (entries ++ more) = (replay entries).bind fun opened => more.foldlM advance opened := by
  rw [replay, List.foldlM_append]
  rfl

theorem replay_concat (entry : DispatchEntry) :
    replay (entries ++ [entry]) = (replay entries).bind (advance · entry) := by
  rw [replay_append]
  simp

/-- An operation is open once more often claimed than resolved. -/
theorem count_of_replay (h : replay entries = some opened) :
    entries.countP (·.kind = .claimed) =
      entries.countP (·.kind = .resolved) + opened.isSome.toNat := by
  induction entries using List.reverseRecOn generalizing opened with
  | nil =>
      obtain rfl := Option.some.inj h
      rfl
  | append_singleton before entry ih =>
      rw [replay_concat] at h
      obtain ⟨between, reached, advanced⟩ := Option.bind_eq_some_iff.mp h
      have counted := ih reached
      rw [List.countP_append, List.countP_append]
      rcases advance_cases advanced with ⟨rfl, kind, rfl⟩ | ⟨rfl, kind, rfl⟩ | ⟨rfl, kind, rfl⟩ <;>
        simpa [kind] using counted

/-- An operation waits for its adapter right after it was claimed. -/
theorem claimed_of_replay (h : replay entries = some (some (operationId, false)))
    (own : ∀ entry ∈ entries, entry.waitId = id) : ⟨id, operationId, .claimed⟩ ∈ entries := by
  rcases List.eq_nil_or_concat entries with rfl | ⟨before, entry, rfl⟩
  · cases h
  · rw [List.concat_eq_append] at h own ⊢
    rw [replay_concat] at h
    obtain ⟨between, -, advanced⟩ := Option.bind_eq_some_iff.mp h
    have here := own entry (by simp)
    rcases advance_cases advanced with ⟨-, kind, same⟩ | ⟨-, -, same⟩ | ⟨-, -, same⟩
    · simp only [Option.some.injEq, Prod.mk.injEq, and_true] at same
      obtain ⟨waitId, operation, _⟩ := entry
      simp_all
    · simp at same
    · cases same

/-- A called operation is resolved before anything else is done. -/
theorem resolved_of_advance (h : middle.foldlM advance (some (operationId, true)) = some opened)
    (own : ∀ entry ∈ middle, entry.waitId = id) :
    middle = [] ∧ opened = some (operationId, true) ∨ ⟨id, operationId, .resolved⟩ ∈ middle := by
  cases middle with
  | nil => exact Or.inl ⟨rfl, (Option.some.inj h).symm⟩
  | cons entry later =>
      have here := own entry (by simp)
      simp only [List.foldlM_cons, Option.bind_eq_bind] at h
      obtain ⟨next, advanced, -⟩ := Option.bind_eq_some_iff.mp h
      rcases advance_cases advanced with ⟨none, -, -⟩ | ⟨other, -, -⟩ | ⟨same, kind, -⟩
      · cases none
      · simp at other
      · simp only [Option.some.injEq, Prod.mk.injEq, and_true] at same
        obtain ⟨waitId, operation, _⟩ := entry
        simp_all

/-- An adapter is called for a claimed operation, and again only after the former is resolved. -/
theorem called_of_replay (h : replay entries = some opened)
    (own : ∀ entry ∈ entries, entry.waitId = id)
    (split : entries = first ++ ⟨id, operationId, .called⟩ :: rest) :
    ⟨id, operationId, .claimed⟩ ∈ first ∧ ∀ middle later last,
      rest = middle ++ ⟨id, later, .called⟩ :: last → ⟨id, operationId, .resolved⟩ ∈ middle := by
  subst split
  rw [replay_append] at h
  obtain ⟨before, reached, moved⟩ := Option.bind_eq_some_iff.mp h
  simp only [List.foldlM_cons, Option.bind_eq_bind] at moved
  obtain ⟨next, called, going⟩ := Option.bind_eq_some_iff.mp moved
  rcases advance_cases called with ⟨-, other, -⟩ | ⟨rfl, -, rfl⟩ | ⟨-, other, -⟩
  · cases other
  · refine ⟨claimed_of_replay reached fun entry member => own entry (by simp [member]), ?_⟩
    rintro middle later last rfl
    rw [List.foldlM_append] at going
    obtain ⟨between, onward, again⟩ := Option.bind_eq_some_iff.mp going
    have mine : ∀ entry ∈ middle, entry.waitId = id := fun entry member =>
      own entry (by simp [member])
    rcases resolved_of_advance onward mine with ⟨rfl, rfl⟩ | resolved
    · simp [advance] at again
    · exact resolved
  · cases other

end Replay

/-! ## What an act does -/

/-- The operation that a reconcile has dispatched, and whether its adapter was called. -/
def ReconcilePhase.dispatching : ReconcilePhase → Option (String × Bool)
  | .dispatched operationId _ _ => some (operationId, false)
  | .awaiting operationId => some (operationId, true)
  | _ => none

/-- A settled record stays as it is, and a pending one is settled or gets events appended. -/
inductive Settles (value : WaitRecord) : WaitRecord → Prop
  | same : Settles value value
  | appends {limits : WaitServiceLimits} {base : WaitRecord} {lifecycle : WaitLifecycle}
      {timestamp : JsNumber} {evidence : Option WaitEvidenceCode}
      (pending : value.lifecycle = .pending) (events : base.events = value.events)
      (next : base.nextSequence = value.nextSequence) :
      Settles value (append limits base lifecycle timestamp evidence)
  | touches {record : WaitRecord} (pending : value.lifecycle = .pending)
      (lifecycle : record.lifecycle = .pending) (events : record.events = value.events)
      (next : record.nextSequence = value.nextSequence) : Settles value record

/-- One act. -/
inductive Stepped (s : WaitSystem) : WaitSystem → Prop
  | idle : Stepped s s
  | moves {call : Nat} {next : Option ReconcileCall}
      (undispatched : ∀ current ∈ next, current.phase.dispatching = none) :
      Stepped s (s.setCall call next)
  | creates {record : WaitRecord} (absent : s.files.version record.id = 0)
      (numbered : Contiguous record) (unclaimed : record.reconciliation = none) :
      Stepped s { s with files := Function.update s.files record.id (some ⟨1, record⟩) }
  | settles {id : String} {version : Nat} {value record : WaitRecord} {after : WaitSystem}
      (held : s.files id = some ⟨version, value⟩) (settled : Settles value record)
      (witness : record.reconciliation = value.reconciliation)
      (ends : after = s.store id record ∨ ∃ call, after = (s.store id record).setCall call none) :
      Stepped s after
  | claims {call version : Nat} {id operationId : String} {value record : WaitRecord}
      {current : ReconcileCall} (held : s.files id = some ⟨version, value⟩)
      (settled : Settles value record) (unclaimed : value.reconciliation = none)
      (witness : record.reconciliation.map (·.operationId) = some operationId)
      (own : current.waitId = id) (phase : current.phase.dispatching = some (operationId, false)) :
      Stepped s { (s.store id record).setCall call (some current) with
        journal := s.journal ++ [⟨id, operationId, .claimed⟩] }
  | dispatches {call : Nat} {before after : ReconcileCall} {operationId : String}
      (found : s.calls call = some before) (own : after.waitId = before.waitId)
      (dispatched : before.phase.dispatching = some (operationId, false))
      (phase : after.phase.dispatching = some (operationId, true)) :
      Stepped s { s.setCall call (some after) with
        journal := s.journal ++ [⟨before.waitId, operationId, .called⟩] }
  | commits {call version : Nat} {before : ReconcileCall} {operationId : String}
      {value record : WaitRecord} (found : s.calls call = some before)
      (awaiting : before.phase.dispatching = some (operationId, true))
      (held : s.files before.waitId = some ⟨version, value⟩) (settled : Settles value record)
      (witness : record.reconciliation = none) :
      Stepped s { (s.store before.waitId record).setCall call none with
        journal := s.journal ++ [⟨before.waitId, operationId, .resolved⟩] }

section Steps

variable {s : WaitSystem} {host : WaitHost} {id operationId : String} {timestamp : JsNumber}
  {record : WaitRecord}

theorem create_spec {input : CreateWaitInput} {fresh : String}
    (h : create host input fresh timestamp = .ok record) :
    Contiguous record ∧ record.reconciliation = none := by
  simp only [create, bind_eq_ok] at h
  obtain ⟨_, _, _, _, _, _, _, _, _, _, made⟩ := h
  obtain rfl := pure_eq_ok.mp made
  exact ⟨Contiguous.append ⟨by simp, rfl⟩, rfl⟩

theorem written_eq_some {after : WaitSystem} {admitted : Bool}
    {result : Except WaitServiceError WaitRecord} (h : s.written id admitted result = some after) :
    ∃ record, result = .ok record ∧ after = s.store id record := by
  cases result with
  | error error => cases h
  | ok record =>
      simp only [WaitSystem.written] at h
      split_ifs at h
      exact ⟨record, rfl, (Option.some.inj h).symm⟩

/-- A transition that is written settles its record. -/
theorem settles_transition {lifecycle : WaitLifecycle} {evidence : WaitEvidenceCode}
    {after : WaitSystem} {admitted : Bool}
    (h : s.written id admitted (transition host id lifecycle evidence timestamp (s.files id)) =
      some after) :
    ∃ version value record, s.files id = some ⟨version, value⟩ ∧ Settles value record ∧
      record.reconciliation = value.reconciliation ∧ after = s.store id record := by
  obtain ⟨record, made, rfl⟩ := written_eq_some h
  obtain ⟨version, value, held, rfl | ⟨pending, rfl⟩⟩ := transition_cases made
  · exact ⟨version, record, record, held, .same, rfl, rfl⟩
  · exact ⟨version, value, _, held, .appends pending rfl rfl, rfl, rfl⟩

/-- A reply that is committed takes the witness out of a pending record. -/
theorem settles_committed {after : WaitSystem} {admitted : Bool} {reply : AdapterReply}
    (h : s.committed host id operationId admitted timestamp reply = some after) :
    ∃ version value record, s.files id = some ⟨version, value⟩ ∧ value.lifecycle = .pending ∧
      Settles value record ∧ record.reconciliation = none ∧ after = s.store id record := by
  rw [WaitSystem.committed.eq_def] at h
  split at h
  · cases h
  · split at h
    · cases h
    · obtain ⟨record, made, rfl⟩ := written_eq_some h
      obtain ⟨version, value, _, held, pending, _, _, rfl | rfl⟩ := commitResult_cases made
      · refine ⟨version, value, _, held, pending, ?_, ?_, rfl⟩
        · exact .touches pending pending rfl rfl
        · rfl
      · refine ⟨version, value, _, held, pending, ?_, ?_, rfl⟩
        · exact .appends pending rfl rfl
        · rfl

theorem Stepped.of_step (made : AdmittedAct) : Stepped s (s.step made) := by
  obtain ⟨act, admitted⟩ := made
  cases act with
  | create host input fresh timestamp =>
      simp only [WaitSystem.step]
      split
      · exact .idle
      · next record created =>
          split_ifs
          · split
            · exact .idle
            · next files swapped =>
                obtain ⟨absent, rfl⟩ := VersionedFiles.swap_eq_some swapped
                obtain ⟨numbered, unclaimed⟩ := create_spec created
                exact .creates absent numbered unclaimed
          · exact .idle
  | cancel host id timestamp =>
      simp only [WaitSystem.step]
      cases written : s.written id admitted (cancel host id timestamp (s.files id)) with
      | none => exact .idle
      | some after =>
          obtain ⟨version, value, record, held, settled, witness, rfl⟩ := settles_transition written
          exact .settles held settled witness (Or.inl rfl)
  | reconcile call host id operationId timestamp =>
      simp only [WaitSystem.step]
      split_ifs
      · exact .idle
      · split
        · exact .moves (by rintro _ ⟨⟩; rfl)
        · exact .moves (by rintro _ ⟨⟩; rfl)
        · exact .idle
  | expire call =>
      simp only [WaitSystem.step]
      split
      · next host id timestamp found =>
          cases written : s.written id admitted (transition host id .timedOut .deadlineExceeded
              timestamp (s.files id)) with
          | none => exact .moves (by rintro _ ⟨⟩)
          | some after =>
              obtain ⟨version, value, record, held, settled, witness, rfl⟩ :=
                settles_transition written
              exact .settles held settled witness (Or.inr ⟨call, rfl⟩)
      · exact .idle
  | claim call =>
      simp only [WaitSystem.step]
      split
      · next host id timestamp operationId found =>
          split
          · exact .moves (by rintro _ ⟨⟩)
          · next record claimed =>
              split_ifs
              · obtain ⟨version, value, held, pending, unclaimed, rfl⟩ := claim_cases claimed
                exact .claims held (.touches pending pending rfl rfl) unclaimed rfl rfl rfl
              · exact .moves (by rintro _ ⟨⟩)
      · exact .idle
  | dispatch call =>
      simp only [WaitSystem.step]
      split
      · next host id operationId source condition found =>
          split
          · exact .moves (by rintro _ ⟨⟩)
          · exact .dispatches found rfl rfl rfl
      · exact .idle
  | reply call reply timestamp =>
      simp only [WaitSystem.step]
      split
      · next host id operationId found =>
          split
          · exact .moves (by rintro _ ⟨⟩)
          · next after committed =>
              obtain ⟨version, value, record, held, -, settled, witness, rfl⟩ :=
                settles_committed committed
              exact .commits found rfl held settled witness
      · exact .idle
  | crash call => exact .moves (by rintro _ ⟨⟩)

end Steps

/-! ## Coherent systems -/

/-- A settled record keeps its lifecycle, and events with old numbers are old. -/
structure Follows (held now : WaitRecord) : Prop where
  terminal : held.lifecycle ≠ .pending → now.lifecycle = held.lifecycle
  numbers : held.nextSequence ≤ now.nextSequence
  old : ∀ event ∈ now.events, event.sequence < held.nextSequence → event ∈ held.events

theorem Follows.refl (record : WaitRecord) : Follows record record :=
  ⟨fun _ => rfl, Nat.le_refl _, fun _ member _ => member⟩

theorem Follows.trans {first second third : WaitRecord} (h : Follows first second)
    (h' : Follows second third) : Follows first third := by
  refine ⟨fun terminal => ?_, Nat.le_trans h.numbers h'.numbers, fun event member old => ?_⟩
  · have same := h.terminal terminal
    rw [← same] at terminal
    exact (h'.terminal terminal).trans same
  · exact h.old event (h'.old event member (Nat.lt_of_lt_of_le old h.numbers)) old

namespace Settles

variable {value record : WaitRecord}

theorem follows (h : Settles value record) : Follows value record := by
  cases h with
  | same => exact .refl _
  | @appends limits base lifecycle timestamp evidence pending events next =>
      refine ⟨absurd pending, ?_, fun event member old => ?_⟩
      · rw [append_nextSequence, next]
        exact Nat.le_succ _
      · exact events ▸ mem_append_events member (next ▸ old)
  | touches pending lifecycle events next =>
      exact ⟨absurd pending, Nat.le_of_eq next.symm, fun event member _ => events ▸ member⟩

theorem contiguous (h : Settles value record) (numbered : Contiguous value) :
    Contiguous record := by
  cases h with
  | same => exact numbered
  | @appends limits base lifecycle timestamp evidence pending events next =>
      exact Contiguous.append ⟨by rw [events, next]; exact numbered.room,
        by rw [events, next]; exact numbered.numbers⟩
  | touches pending lifecycle events next =>
      exact ⟨by rw [events, next]; exact numbered.room,
        by rw [events, next]; exact numbered.numbers⟩

end Settles

/-- The operation whose result the record of a wait still lacks. -/
def WaitSystem.witness (s : WaitSystem) (id : String) : Option String :=
  ((s.files id).bind (·.value.reconciliation)).map (·.operationId)

structure Coherent (s : WaitSystem) : Prop where
  positive : ∀ id held, s.files id = some held → 0 < held.version
  numbered : ∀ id held, s.files id = some held → Contiguous held.value
  replayed : ∀ id, ∃ opened, replay (entriesOf id s.journal) = some opened ∧
    opened.map (·.1) = s.witness id
  dispatching : ∀ call current opened, s.calls call = some current →
    current.phase.dispatching = some opened →
      replay (entriesOf current.waitId s.journal) = some (some opened)
  alone : ∀ first second a b, s.calls first = some a → s.calls second = some b →
    a.phase.dispatching.isSome = true → b.phase.dispatching.isSome = true →
      a.waitId = b.waitId → first = second

namespace Coherent

variable {s : WaitSystem} {id : String} {record value : WaitRecord} {version : Nat}

theorem start : Coherent .start where
  positive _ _ h := by cases h
  numbered _ _ h := by cases h
  replayed _ := ⟨none, rfl, rfl⟩
  dispatching _ _ _ h := by cases h
  alone _ _ _ _ h := by cases h

/-- Ending a call, or one that has not dispatched yet. -/
theorem moves (h : Coherent s) {call : Nat} {next : Option ReconcileCall}
    (undispatched : ∀ current ∈ next, current.phase.dispatching = none) :
    Coherent (s.setCall call next) where
  positive := h.positive
  numbered := h.numbered
  replayed := h.replayed
  dispatching other current opened found phase := by
    dsimp only [WaitSystem.setCall] at found
    by_cases same : other = call
    · subst same
      rw [Function.update_self] at found
      simp [undispatched current found] at phase
    · rw [Function.update_of_ne same] at found
      exact h.dispatching other current opened found phase
  alone first second a b ha hb pa pb same := by
    dsimp only [WaitSystem.setCall] at ha hb
    have other (n : Nat) (c : ReconcileCall) (found : Function.update s.calls call next n = some c)
        (phase : c.phase.dispatching.isSome = true) : s.calls n = some c := by
      by_cases own : n = call
      · subst own
        rw [Function.update_self] at found
        simp [undispatched c found] at phase
      · rwa [Function.update_of_ne own] at found
    exact h.alone first second a b (other first a ha pa) (other second b hb pb) pa pb same

theorem store_cases {other : String} {held : VersionedState WaitRecord}
    (found : (s.store id record).files other = some held) :
    other = id ∧ held.value = record ∧ 0 < held.version ∨
      other ≠ id ∧ s.files other = some held := by
  dsimp only [WaitSystem.store] at found
  by_cases same : other = id
  · subst same
    rw [Function.update_self] at found
    obtain rfl := Option.some.inj found
    exact Or.inl ⟨rfl, rfl, Nat.succ_pos _⟩
  · rw [Function.update_of_ne same] at found
    exact Or.inr ⟨same, found⟩

theorem positive_store (h : Coherent s) (other : String) (held : VersionedState WaitRecord)
    (found : (s.store id record).files other = some held) : 0 < held.version := by
  rcases store_cases found with ⟨-, -, positive⟩ | ⟨-, found⟩
  · exact positive
  · exact h.positive other held found

theorem numbered_store (h : Coherent s) (numbered : Contiguous record) (other : String)
    (held : VersionedState WaitRecord) (found : (s.store id record).files other = some held) :
    Contiguous held.value := by
  rcases store_cases found with ⟨-, rfl, -⟩ | ⟨-, found⟩
  · exact numbered
  · exact h.numbered other held found

theorem witness_store_self :
    (s.store id record).witness id = record.reconciliation.map (·.operationId) := by
  simp [WaitSystem.witness, WaitSystem.store]

theorem witness_store_of_ne {other : String} (ne : other ≠ id) :
    (s.store id record).witness other = s.witness other := by
  simp [WaitSystem.witness, WaitSystem.store, Function.update_of_ne ne]

/-- A record is written whose witness stays. -/
theorem store (h : Coherent s) (numbered : Contiguous record)
    (witness : record.reconciliation.map (·.operationId) = s.witness id) :
    Coherent (s.store id record) where
  positive := h.positive_store
  numbered := h.numbered_store numbered
  replayed other := by
    obtain ⟨opened, replayed, same⟩ := h.replayed other
    refine ⟨opened, replayed, same.trans ?_⟩
    by_cases here : other = id
    · subst here
      rw [witness_store_self, witness]
    · rw [witness_store_of_ne here]
  dispatching := h.dispatching
  alone := h.alone

theorem entriesOf_append (other : String) (journal : List DispatchEntry) (entry : DispatchEntry) :
    entriesOf other (journal ++ [entry]) =
      if entry.waitId = other then entriesOf other journal ++ [entry] else entriesOf other journal := by
  by_cases same : entry.waitId = other <;> simp [entriesOf, same]

/-- The journal goes on with the operation of one call. -/
theorem advances (h : Coherent s) (entry : DispatchEntry) {files : VersionedFiles String WaitRecord}
    {call : Nat} {next : Option ReconcileCall} {opened opened' : Option (String × Bool)}
    (before : replay (entriesOf entry.waitId s.journal) = some opened)
    (moved : advance opened entry = some opened')
    (others : ∀ other current, s.calls other = some current →
      current.phase.dispatching.isSome = true → current.waitId = entry.waitId → other = call)
    (now : ∀ current ∈ next, current.waitId = entry.waitId ∧ current.phase.dispatching = opened')
    (positive : ∀ id held, files id = some held → 0 < held.version)
    (numbered : ∀ id held, files id = some held → Contiguous held.value)
    (own : opened'.map (·.1) = WaitSystem.witness ⟨files, s.calls, s.journal⟩ entry.waitId)
    (apart : ∀ other ≠ entry.waitId,
      WaitSystem.witness ⟨files, s.calls, s.journal⟩ other = s.witness other) :
    Coherent ⟨files, Function.update s.calls call next, s.journal ++ [entry]⟩ where
  positive := positive
  numbered := numbered
  replayed other := by
    rw [entriesOf_append]
    by_cases here : entry.waitId = other
    · subst here
      rw [if_pos rfl, replay_concat, before]
      exact ⟨opened', moved, own⟩
    · rw [if_neg here]
      obtain ⟨held, replayed, same⟩ := h.replayed other
      exact ⟨held, replayed, same.trans (apart other (Ne.symm here)).symm⟩
  dispatching other current held found phase := by
    dsimp only at found ⊢
    rw [entriesOf_append]
    by_cases same : other = call
    · subst same
      rw [Function.update_self] at found
      obtain ⟨mine, dispatching⟩ := now current found
      rw [if_pos mine.symm, mine, replay_concat, before, ← phase, dispatching]
      exact moved
    · rw [Function.update_of_ne same] at found
      have elsewhere : entry.waitId ≠ current.waitId := fun here =>
        same (others other current found (by simp [phase]) here.symm)
      rw [if_neg elsewhere]
      exact h.dispatching other current held found phase
  alone first second a b ha hb pa pb same := by
    dsimp only at ha hb
    have cases_of (n : Nat) (c : ReconcileCall)
        (found : Function.update s.calls call next n = some c)
        (phase : c.phase.dispatching.isSome = true) :
        n = call ∧ c.waitId = entry.waitId ∨
          n ≠ call ∧ s.calls n = some c ∧ c.waitId ≠ entry.waitId := by
      by_cases here : n = call
      · subst here
        rw [Function.update_self] at found
        exact Or.inl ⟨rfl, (now c found).1⟩
      · rw [Function.update_of_ne here] at found
        exact Or.inr ⟨here, found, fun mine => here (others n c found phase mine)⟩
    rcases cases_of first a ha pa with ⟨rfl, ma⟩ | ⟨-, fa, ma⟩ <;>
      rcases cases_of second b hb pb with ⟨rfl, mb⟩ | ⟨-, fb, mb⟩
    · rfl
    · exact absurd (same ▸ ma) mb
    · exact absurd (same ▸ mb) ma
    · exact h.alone first second a b fa fb pa pb same

/-- One act keeps a system coherent. -/
theorem stepped (h : Coherent s) {after : WaitSystem} (step : Stepped s after) :
    Coherent after := by
  cases step with
  | idle => exact h
  | moves undispatched => exact h.moves undispatched
  | @creates record absent numbered unclaimed =>
      have missing : s.files record.id = none := by
        cases held : s.files record.id with
        | none => rfl
        | some held' =>
            rw [VersionedFiles.version_eq held] at absent
            exact absurd absent (Nat.ne_of_gt (h.positive _ _ held))
      have stored : Coherent (s.store record.id record) := h.store numbered
        (by simp [unclaimed, WaitSystem.witness, missing])
      simpa only [WaitSystem.store, absent] using stored
  | @settles id version value record after held settled witness ends =>
      have stored : Coherent (s.store id record) := h.store
        (settled.contiguous (h.numbered _ _ held)) (by simp [witness, WaitSystem.witness, held])
      rcases ends with rfl | ⟨call, rfl⟩
      · exact stored
      · exact stored.moves (by rintro _ ⟨⟩)
  | @claims call version id operationId value record current held settled unclaimed witness own phase =>
      obtain ⟨opened, replayed, same⟩ := h.replayed id
      have none : opened = none := by
        simpa [WaitSystem.witness, held, unclaimed] using same
      subst none
      refine h.advances ⟨id, operationId, .claimed⟩ replayed rfl ?_ ?_ h.positive_store
        (h.numbered_store (settled.contiguous (h.numbered _ _ held))) ?_ ?_
      · intro other current found dispatching here
        obtain ⟨held, dispatched⟩ := Option.isSome_iff_exists.mp dispatching
        have clash := h.dispatching other current held found dispatched
        rw [here, replayed] at clash
        cases clash
      · rintro _ ⟨⟩
        exact ⟨own, phase⟩
      · exact (witness_store_self.trans witness).symm
      · exact fun other ne => witness_store_of_ne ne
  | @dispatches call before after operationId found own dispatched phase =>
      have replayed := h.dispatching call before _ found dispatched
      refine h.advances ⟨before.waitId, operationId, .called⟩ replayed
        (by simp [advance]; rfl) ?_ ?_ h.positive h.numbered ?_ fun _ _ => rfl
      · intro other current found' dispatching here
        exact h.alone other call current before found' found dispatching (by simp [dispatched]) here
      · rintro _ ⟨⟩
        exact ⟨own, phase⟩
      · obtain ⟨opened, replayed', same⟩ := h.replayed before.waitId
        obtain rfl := Option.some.inj (replayed'.symm.trans replayed)
        exact same
  | @commits call version before operationId value record found awaiting held settled witness =>
      have replayed := h.dispatching call before _ found awaiting
      refine h.advances ⟨before.waitId, operationId, .resolved⟩ replayed
        (by simp [advance]; rfl) ?_ (by rintro _ ⟨⟩) h.positive_store
        (h.numbered_store (settled.contiguous (h.numbered _ _ held))) ?_ ?_
      · intro other current found' dispatching here
        exact h.alone other call current before found' found dispatching (by simp [awaiting]) here
      · exact (witness_store_self.trans (by rw [witness]; rfl)).symm
      · exact fun other ne => witness_store_of_ne ne

end Coherent

/-- What one act does to a stored record. -/
theorem Stepped.follows {s after : WaitSystem} (h : Coherent s) (step : Stepped s after)
    {id : String} {held : VersionedState WaitRecord} (stored : s.files id = some held) :
    ∃ now, after.files id = some now ∧ Follows held.value now.value := by
  have kept (other : String) (version : Nat) (value record : WaitRecord)
      (found : s.files other = some ⟨version, value⟩) (settled : Settles value record) :
      ∃ now, (s.store other record).files id = some now ∧ Follows held.value now.value := by
    by_cases same : id = other
    · subst same
      obtain rfl := Option.some.inj (found.symm.trans stored)
      exact ⟨_, Function.update_self .., settled.follows⟩
    · exact ⟨held, (Function.update_of_ne same ..).trans stored, .refl _⟩
  cases step with
  | idle => exact ⟨held, stored, .refl _⟩
  | moves _ => exact ⟨held, stored, .refl _⟩
  | @creates record absent _ _ =>
      have other : id ≠ record.id := by
        rintro rfl
        rw [VersionedFiles.version_eq stored] at absent
        exact absurd absent (Nat.ne_of_gt (h.positive _ _ stored))
      exact ⟨held, (Function.update_of_ne other ..).trans stored, .refl _⟩
  | settles found settled _ ends =>
      rcases ends with rfl | ⟨call, rfl⟩ <;> exact kept _ _ _ _ found settled
  | claims found settled _ _ _ _ => exact kept _ _ _ _ found settled
  | dispatches _ _ _ _ => exact ⟨held, stored, .refl _⟩
  | commits _ _ found settled _ => exact kept _ _ _ _ found settled

/-! ## Whole runs -/

theorem coherent_of_run {s t : WaitSystem} {acts : List AdmittedAct}
    (run : Run WaitSystem.Steps s acts t) (start : Coherent s) : Coherent t := by
  refine run.invariant ?_ start
  rintro a made b coherent rfl
  exact coherent.stepped (.of_step made)

theorem follows_of_run {s t : WaitSystem} {acts : List AdmittedAct}
    (run : Run WaitSystem.Steps s acts t) (start : Coherent s) {id : String}
    {held : VersionedState WaitRecord} (stored : s.files id = some held) :
    ∃ now, t.files id = some now ∧ Follows held.value now.value := by
  induction run with
  | refl => exact ⟨held, stored, .refl _⟩
  | tail before last ih =>
      obtain ⟨between, found, follows⟩ := ih
      obtain rfl := last
      obtain ⟨now, found', follows'⟩ := (Stepped.of_step _).follows (coherent_of_run before start) found
      exact ⟨now, found', follows.trans follows'⟩

/-- Over any run of any number of hosts: a settled wait keeps its lifecycle, its events are numbered
one by one, one operation at most is not resolved, an operation is dispatched again only after the
former was resolved, and a late result changes nothing. -/
theorem wait_service_safe {earlier later : WaitSystem} {acts more : List AdmittedAct}
    (before : Run WaitSystem.Steps .start acts earlier)
    (after : Run WaitSystem.Steps earlier more later) (id : String) :
    (∀ held, earlier.files id = some held → Contiguous held.value ∧
      ∃ now, later.files id = some now ∧ Follows held.value now.value) ∧
    (entriesOf id earlier.journal).countP (·.kind = .claimed) =
      (entriesOf id earlier.journal).countP (·.kind = .resolved) +
        (earlier.witness id).isSome.toNat ∧
    (∀ first operationId rest,
      entriesOf id earlier.journal = first ++ ⟨id, operationId, .called⟩ :: rest →
        ⟨id, operationId, .claimed⟩ ∈ first ∧ ∀ middle again last,
          rest = middle ++ ⟨id, again, .called⟩ :: last → ⟨id, operationId, .resolved⟩ ∈ middle) ∧
    ∀ call host operationId held reply timestamp admitted,
      earlier.calls call = some ⟨host, id, .awaiting operationId⟩ →
        earlier.files id = some held → held.value.lifecycle ≠ .pending →
          (earlier.step ⟨.reply call reply timestamp, admitted⟩).files = earlier.files := by
  have coherent := coherent_of_run before .start
  obtain ⟨opened, replayed, witness⟩ := coherent.replayed id
  refine ⟨fun held stored => ⟨coherent.numbered id held stored,
    follows_of_run after coherent stored⟩, ?_, ?_, ?_⟩
  · rw [count_of_replay replayed, ← witness, Option.isSome_map]
  · intro first operationId rest split
    refine called_of_replay replayed ?_ split
    intro entry member
    simpa using (List.mem_filter.mp member).2
  · intro call host operationId held reply timestamp admitted waits stored terminal
    simp only [WaitSystem.step, waits]
    split
    · rfl
    · next after' committed =>
        obtain ⟨version, value, record, found, pending, -, -, -⟩ := settles_committed committed
        obtain rfl := Option.some.inj (found.symm.trans stored)
        exact absurd pending terminal

/-- A host with one adapter. -/
def timerHost : WaitHost := ⟨defaultWaitServiceLimits, [⟨"timer", 1, fun _ _ => true⟩], fun _ => "0"⟩

/-- A wait that is cancelled while its adapter runs. -/
def cancelledScript : List AdmittedAct :=
  [.create timerHost ⟨⟨⟨"timer", 1, ⟨"timer", "t"⟩⟩, ⟨"elapsed", none⟩, ⟨.operator, "o"⟩,
      ⟨.events, none⟩, none, .inspect⟩, some "w"⟩ "" 1,
    .reconcile 0 timerHost "w" "x" 2, .claim 0, .dispatch 0, .cancel timerHost "w" 3,
    .reply 0 (.returned ⟨"satisfied", none⟩) 4].map fun act => ⟨act, true⟩

def openedWait : WaitRecord :=
  ⟨⟨⟨"timer", 1, ⟨"timer", "t"⟩⟩, ⟨"elapsed", none⟩, ⟨.operator, "o"⟩, ⟨.events, none⟩, none,
    .inspect⟩, "w", .pending, 1, 1, 2, [⟨1, "w", .pending, 1, none⟩], [], none⟩

def claimedWait : WaitRecord :=
  { openedWait with
    updatedAt := 2
    reconciliation := some ⟨"x", 2⟩ }

def cancelledWait : WaitRecord :=
  append timerHost.limits claimedWait .cancelled 3 (some .cancelled)

theorem openedWait_valid : validateRecord timerHost openedWait 1 = .ok () := by
  decide +kernel

theorem claimedWait_valid : validateRecord timerHost claimedWait 2 = .ok () := by
  decide +kernel

theorem cancelledWait_valid : validateRecord timerHost cancelledWait 3 = .ok () := by
  decide +kernel

section OtherHosts

variable {host : WaitHost}

theorem create_openedWait (adapters : host.adapters = [⟨"timer", 1, fun _ _ => true⟩])
    (kept : append host.limits { openedWait with nextSequence := 1, events := [] } .pending 1 none =
      openedWait) (opened : validateRecord host openedWait 1 = .ok ()) :
    create host ⟨⟨⟨"timer", 1, ⟨"timer", "t"⟩⟩, ⟨"elapsed", none⟩, ⟨.operator, "o"⟩,
      ⟨.events, none⟩, none, .inspect⟩, some "w"⟩ "" 1 = .ok openedWait := by
  have named : waitId.test "w" = true := by decide +kernel
  have input : validInput host.limits openedWait.toWaitSpecification = true := by
    obtain ⟨_, valid, -⟩ := by simpa only [validateRecord, bind_eq_ok] using opened
    exact (Bool.and_eq_true_iff.mp (require_eq_ok.mp valid)).2
  have found : adapterFor host openedWait.source = .ok ⟨"timer", 1, fun _ _ => true⟩ := by
    rw [adapterFor, adapters]
    rfl
  refine require_bind_eq_ok.mpr ⟨input, bind_eq_ok.mpr ⟨_, found, ?_⟩⟩
  refine require_bind_eq_ok.mpr ⟨rfl, require_bind_eq_ok.mpr ⟨named, ?_⟩⟩
  refine bind_eq_ok.mpr ⟨(), ?_, congrArg Except.ok kept⟩
  exact (congrArg (assertRecordSize host · "w" 1) kept).trans (assertRecordSize_of_valid opened)

theorem current_openedWait (opened : validateRecord host openedWait 1 = .ok ()) :
    currentRecord host (some ⟨1, openedWait⟩) "w" = .ok openedWait :=
  currentRecord_of_valid rfl opened

theorem plan_openedWait (opened : validateRecord host openedWait 1 = .ok ()) :
    planReconcile host "w" 2 (some ⟨1, openedWait⟩) = .ok .claims := by
  have named : waitId.test "w" = true := by decide +kernel
  exact require_bind_eq_ok.mpr ⟨named, bind_eq_ok.mpr ⟨_, current_openedWait opened, rfl⟩⟩

theorem claim_openedWait (opened : validateRecord host openedWait 1 = .ok ())
    (claimed : validateRecord host claimedWait 2 = .ok ()) :
    claim host "w" "x" 2 (some ⟨1, openedWait⟩) = .ok claimedWait :=
  mutate_of_valid (bind_eq_ok.mpr ⟨_, bind_eq_ok.mpr ⟨_, current_openedWait opened,
    bind_eq_ok.mpr ⟨_, rfl, rfl⟩⟩, rfl⟩) rfl claimed

end OtherHosts

theorem cancel_claimedWait :
    cancel timerHost "w" 3 (some ⟨2, claimedWait⟩) = .ok cancelledWait := by
  have read : currentRecord timerHost (some ⟨2, claimedWait⟩) "w" = .ok claimedWait :=
    currentRecord_of_valid rfl claimedWait_valid
  have counted : nextEnvelopeVersion (some ⟨2, claimedWait⟩) "w" = .ok 3 := rfl
  rw [cancel, transition]
  exact mutate_of_valid (bind_eq_ok.mpr ⟨_, read, by rfl⟩) counted cancelledWait_valid

theorem commit_cancelledWait :
    commitResult timerHost "w" "x" (.satisfied, none) 4 (some ⟨3, cancelledWait⟩) =
      .error ⟨.reconcileUncertain, some "w"⟩ := by
  have current : currentRecord timerHost (some ⟨3, cancelledWait⟩) "w" = .ok cancelledWait :=
    currentRecord_of_valid rfl cancelledWait_valid
  simp only [commitResult, mutate, current]
  rfl



theorem adapterFor_openedWait :
    adapterFor timerHost openedWait.source = .ok ⟨"timer", 1, fun _ _ => true⟩ := rfl

theorem observed_satisfied :
    validateObservation ⟨"satisfied", none⟩ = .ok (.satisfied, none) := by
  decide +kernel

/-- What is stored of the wait, its reconcile and the journal. -/
structure Standing (system : WaitSystem) (held : VersionedState WaitRecord)
    (phase : Option ReconcilePhase) (journal : List DispatchEntry) : Prop where
  file : system.files "w" = some held
  call : system.calls 0 = phase.map fun phase => ⟨timerHost, "w", phase⟩
  journal : system.journal = journal

/-- The acts of the script one after another. -/
theorem foldl_cancelledScript {σ : Type} (next : σ → AdmittedAct → σ) (s : σ) :
    cancelledScript.foldl next s =
      next (next (next (next (next (next s
        ⟨.create timerHost ⟨⟨⟨"timer", 1, ⟨"timer", "t"⟩⟩, ⟨"elapsed", none⟩, ⟨.operator, "o"⟩,
          ⟨.events, none⟩, none, .inspect⟩, some "w"⟩ "" 1, true⟩)
        ⟨.reconcile 0 timerHost "w" "x" 2, true⟩) ⟨.claim 0, true⟩) ⟨.dispatch 0, true⟩)
        ⟨.cancel timerHost "w" 3, true⟩)
        ⟨.reply 0 (.returned ⟨"satisfied", none⟩) 4, true⟩ :=
  rfl

theorem standing_openedWait : Standing (WaitSystem.start.step
    ⟨.create timerHost ⟨⟨⟨"timer", 1, ⟨"timer", "t"⟩⟩, ⟨"elapsed", none⟩, ⟨.operator, "o"⟩,
      ⟨.events, none⟩, none, .inspect⟩, some "w"⟩ "" 1, true⟩) ⟨1, openedWait⟩ none [] := by
  have named : openedWait.id = "w" := rfl
  rw [WaitSystem.step_create (create_openedWait rfl rfl openedWait_valid) rfl]
  exact ⟨by simp [named], rfl, rfl⟩

theorem cancelledScript_standing :
    Standing (cancelledScript.foldl WaitSystem.step .start) ⟨3, cancelledWait⟩ none
      [⟨"w", "x", .claimed⟩, ⟨"w", "x", .called⟩] := by
  have planned {s : WaitSystem} (h : Standing s ⟨1, openedWait⟩ none []) :
      Standing (s.step ⟨.reconcile 0 timerHost "w" "x" 2, true⟩) ⟨1, openedWait⟩
        (some (.claiming 2 "x")) [] := by
    rw [WaitSystem.step_reconcile h.call (by rw [h.file, plan_openedWait openedWait_valid])]
    exact ⟨h.file, by simp [WaitSystem.setCall], h.journal⟩
  have claimed {s : WaitSystem} (h : Standing s ⟨1, openedWait⟩ (some (.claiming 2 "x")) []) :
      Standing (s.step ⟨.claim 0, true⟩) ⟨2, claimedWait⟩
        (some (.dispatched "x" openedWait.source openedWait.condition))
        [⟨"w", "x", .claimed⟩] := by
    rw [WaitSystem.step_claim h.call 
      (by rw [h.file, claim_openedWait openedWait_valid claimedWait_valid])]
    refine ⟨?_, by simp [WaitSystem.setCall, claimedWait], by rw [h.journal]; rfl⟩
    simp [WaitSystem.setCall, WaitSystem.store, VersionedFiles.version_eq h.file]
  have called {s : WaitSystem} (h : Standing s ⟨2, claimedWait⟩
      (some (.dispatched "x" openedWait.source openedWait.condition)) [⟨"w", "x", .claimed⟩]) :
      Standing (s.step ⟨.dispatch 0, true⟩) ⟨2, claimedWait⟩ (some (.awaiting "x"))
        [⟨"w", "x", .claimed⟩, ⟨"w", "x", .called⟩] := by
    rw [WaitSystem.step_dispatch h.call adapterFor_openedWait]
    exact ⟨h.file, by simp [WaitSystem.setCall], by rw [h.journal]; rfl⟩
  have cancelled {s : WaitSystem} (h : Standing s ⟨2, claimedWait⟩ (some (.awaiting "x"))
      [⟨"w", "x", .claimed⟩, ⟨"w", "x", .called⟩]) :
      Standing (s.step ⟨.cancel timerHost "w" 3, true⟩) ⟨3, cancelledWait⟩ (some (.awaiting "x"))
        [⟨"w", "x", .claimed⟩, ⟨"w", "x", .called⟩] := by
    rw [WaitSystem.step_cancel (by rw [h.file, cancel_claimedWait])]
    refine ⟨?_, h.call, h.journal⟩
    simp [WaitSystem.store, VersionedFiles.version_eq h.file]
  have replied {s : WaitSystem} (h : Standing s ⟨3, cancelledWait⟩ (some (.awaiting "x"))
      [⟨"w", "x", .claimed⟩, ⟨"w", "x", .called⟩]) :
      Standing (s.step ⟨.reply 0 (.returned ⟨"satisfied", none⟩) 4, true⟩) ⟨3, cancelledWait⟩ none
        [⟨"w", "x", .claimed⟩, ⟨"w", "x", .called⟩] := by
    rw [WaitSystem.step_reply h.call observed_satisfied (by rw [h.file, commit_cancelledWait])]
    exact ⟨h.file, by simp [WaitSystem.setCall], h.journal⟩
  rw [foldl_cancelledScript]
  exact replied (cancelled (called (claimed (planned standing_openedWait))))

theorem wait_service_safe_cancelledScript :
    let system := cancelledScript.foldl WaitSystem.step .start
    (system.files "w").any (·.value.lifecycle = .cancelled) = true ∧
      (entriesOf "w" system.journal).countP (·.kind = .claimed) = 1 ∧
      (entriesOf "w" system.journal).countP (·.kind = .claimed) =
        (entriesOf "w" system.journal).countP (·.kind = .resolved) +
          (system.witness "w").isSome.toNat := by
  have run := Run.foldl WaitSystem.step .start cancelledScript
  have ended := cancelledScript_standing
  refine ⟨?_, ?_, (wait_service_safe run (.refl _) "w").2.1⟩
  · rw [ended.file]
    rfl
  · rw [ended.journal]
    decide

end AdCoder.Waits
