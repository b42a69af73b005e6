import AdCoder.Waits.WaitRuns

/-!
# A dispatch without an adapter

`reconcile` looks its adapter up after it has recorded the dispatch. When there
is no adapter, the witness of an operation that nobody was asked to do stays on
the record, and no later reconcile gets past it.
-/

namespace AdCoder.Waits

open Foundation

/-- `reconcile` throws for want of an adapter. -/
structure AdapterMissing (host : WaitHost) (id operationId : String) (timestamp : JsNumber)
    (current : Option (VersionedState WaitRecord)) : Prop where
  plan : planReconcile host id timestamp current = .ok .claims
  lookup : ∃ record, claim host id operationId timestamp current = .ok record ∧
    ∃ error, adapterFor host record.source = .error error

/-- A reconcile up to its adapter, with nobody in between. -/
def WaitSystem.reconciled (system : WaitSystem) (call : Nat) (host : WaitHost)
    (id operationId : String) (timestamp : JsNumber) : WaitSystem :=
  [.reconcile call host id operationId timestamp, .claim call, .dispatch call].foldl
    (fun system act => system.step ⟨act, true⟩) system

section Stranded

variable {system : WaitSystem} {host : WaitHost} {call : Nat} {id operationId : String}
  {timestamp : JsNumber}

/-- A record with a witness is not claimed again. -/
theorem planReconcile_ne_claims {held : VersionedState WaitRecord}
    (witnessed : held.value.reconciliation.isSome = true) :
    planReconcile host id timestamp (some held) ≠ .ok .claims := by
  intro planned
  simp only [planReconcile, bind_eq_ok] at planned
  obtain ⟨_, -, record, read, planned⟩ := planned
  obtain ⟨version, same⟩ := currentRecord_eq_ok read
  obtain rfl : held.value = record := by rw [Option.some.inj same]
  rw [if_pos witnessed] at planned
  split_ifs at planned
  · cases pure_eq_ok.mp planned
  · cases pure_eq_ok.mp planned

theorem reconciled_files (idle : system.calls call = none) {record : WaitRecord}
    {error : WaitServiceError}
    (plan : planReconcile host id timestamp (system.files id) = .ok .claims)
    (claimed : claim host id operationId timestamp (system.files id) = .ok record)
    (missing : adapterFor host record.source = .error error) :
    (system.reconciled call host id operationId timestamp).files =
        (system.store id record).files ∧
      (system.reconciled call host id operationId timestamp).calls call = none := by
  simp only [WaitSystem.reconciled, List.foldl_cons, List.foldl_nil, WaitSystem.step, idle,
    Option.isSome_none, Bool.false_eq_true, if_false, plan, WaitSystem.setCall,
    Function.update_self, claimed, if_true, missing, and_true]
  rfl

/-- Whenever a reconcile throws for want of an adapter, the record has changed: it had no witness
and now has one, and no reconcile of any service calls an adapter for it again. -/
theorem missing_adapter_strands (idle : system.calls call = none)
    (missing : AdapterMissing host id operationId timestamp (system.files id)) :
    ∃ before after, system.files id = some before ∧
      (system.reconciled call host id operationId timestamp).files id = some after ∧
      before.value.lifecycle = .pending ∧ before.value.reconciliation = none ∧
      after.value = { before.value with
        updatedAt := timestamp
        reconciliation := some ⟨operationId, timestamp⟩ } ∧
      after.value ≠ before.value ∧
      ∀ later time, planReconcile later id time (some after) ≠ .ok .claims := by
  obtain ⟨plan, record, claimed, error, lookup⟩ := missing
  obtain ⟨version, value, held, pending, unclaimed, rfl⟩ := claim_cases claimed
  obtain ⟨files, -⟩ := reconciled_files idle plan claimed lookup
  refine ⟨⟨version, value⟩, ⟨system.files.version id + 1, _⟩, held, ?_, pending, unclaimed, rfl,
    ?_, ?_⟩
  · rw [files]
    exact Function.update_self ..
  · intro same
    have witness := congrArg WaitRecord.reconciliation same
    rw [unclaimed] at witness
    cases witness
  · exact fun later time => planReconcile_ne_claims rfl

end Stranded

/-! ## A wait whose adapter is registered elsewhere -/

/-- A service without adapters. -/
def bareHost : WaitHost := ⟨defaultWaitServiceLimits, [], fun _ => "0"⟩

/-- One pending wait of the service with the timer adapter. -/
def pendingSystem : WaitSystem :=
  WaitSystem.start.step ⟨.create timerHost ⟨⟨⟨"timer", 1, ⟨"timer", "t"⟩⟩, ⟨"elapsed", none⟩,
    ⟨.operator, "o"⟩, ⟨.events, none⟩, none, .inspect⟩, some "w"⟩ "" 1, true⟩

theorem standing_pendingSystem : Standing pendingSystem ⟨1, openedWait⟩ none [] :=
  standing_openedWait

theorem pendingSystem_idle : pendingSystem.calls 0 = none :=
  standing_pendingSystem.call

theorem openedWait_valid_bareHost : validateRecord bareHost openedWait 1 = .ok () :=
  openedWait_valid

theorem claimedWait_valid_bareHost : validateRecord bareHost claimedWait 2 = .ok () :=
  claimedWait_valid

theorem pendingSystem_missing : AdapterMissing bareHost "w" "x" 2 (pendingSystem.files "w") where
  plan := by rw [standing_pendingSystem.file, plan_openedWait openedWait_valid_bareHost]
  lookup := ⟨claimedWait, by rw [standing_pendingSystem.file,
    claim_openedWait openedWait_valid_bareHost claimedWait_valid_bareHost], _, rfl⟩

theorem missing_adapter_strands_pendingSystem :
    ∃ before after, pendingSystem.files "w" = some before ∧
      (pendingSystem.reconciled 0 bareHost "w" "x" 2).files "w" = some after ∧
        after.value ≠ before.value := by
  obtain ⟨before, after, stored, written, -, -, -, changed, -⟩ :=
    missing_adapter_strands pendingSystem_idle pendingSystem_missing
  exact ⟨before, after, stored, written, changed⟩

/-- A reconcile that throws for want of an adapter does not leave the wait as it was. -/
theorem missing_adapter_changes_record :
    ¬ ∀ (system : WaitSystem) (call : Nat) (host : WaitHost) (id operationId : String)
      (timestamp : JsNumber) (before after : VersionedState WaitRecord),
      system.calls call = none →
      AdapterMissing host id operationId timestamp (system.files id) →
      system.files id = some before →
      (system.reconciled call host id operationId timestamp).files id = some after →
        after.value = before.value := by
  intro unchanged
  obtain ⟨plan, record, claimed, error, lookup⟩ := pendingSystem_missing
  obtain ⟨version, value, held, pending, unclaimed, rfl⟩ := claim_cases claimed
  obtain ⟨files, -⟩ := reconciled_files pendingSystem_idle plan claimed lookup
  have stored := (congrFun files "w").trans WaitSystem.store_self
  have same := unchanged pendingSystem 0 bareHost "w" "x" 2 _ _ pendingSystem_idle
    pendingSystem_missing held stored
  have witness := congrArg WaitRecord.reconciliation same
  rw [unclaimed] at witness
  cases witness

end AdCoder.Waits
