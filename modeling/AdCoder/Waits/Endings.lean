import AdCoder.Foundation.JsonSizes
import AdCoder.Foundation.RegexLaws
import AdCoder.Waits.Readable
import Mathlib.Data.Nat.Digits.Defs

/-!
# Waits that can be ended

The record of a pending wait differs from the one that its creation stored in the time of the
last update and in the witness alone. So every pending wait can be ended if its first record
leaves room for an event and an evidence more, for a witness and for longer numbers.
-/

namespace AdCoder.Waits

open Foundation

/-- The record that a creation stores. -/
def firstRecord (limits : WaitServiceLimits) (input : CreateWaitInput) (fresh : String)
    (timestamp : JsNumber) : WaitRecord :=
  append limits { input.toWaitSpecification with
    id := input.id.getD fresh
    lifecycle := .pending
    createdAt := timestamp
    updatedAt := timestamp
    nextSequence := 1
    events := []
    evidence := []
    reconciliation := none } .pending timestamp none

/-- What a reader accepts as a witness. -/
def safeWitness (witness : Option WaitReconciliation) : Bool :=
  witness.all fun witness => safeId.test witness.operationId && safeTimestamp witness.dispatchedAt

/-- The record, ended with any witness, at any time and under any version, is within the
ceiling. -/
def Room (limits : WaitServiceLimits) (showNumber : JsNumber → String) (record : WaitRecord)
    (lifecycle : WaitLifecycle) (evidence : WaitEvidenceCode) : Prop :=
  ∀ witness timestamp version, safeWitness witness = true → safeTimestamp timestamp = true →
    positiveInteger (.finite (version : Nat)) = true →
      persistedBytes showNumber (append limits { record with reconciliation := witness } lifecycle
        timestamp (some evidence)) version ≤ limits.maxPersistedStateBytes

/-- There is room for a cancellation, and for the deadline if there is one. -/
structure Endable (limits : WaitServiceLimits) (showNumber : JsNumber → String)
    (record : WaitRecord) : Prop where
  cancels : Room limits showNumber record .cancelled .cancelled
  expires : record.deadlineAt.isSome = true →
    Room limits showNumber record .timedOut .deadlineExceeded

/-- A creation leaves room, and no wait has been written so often that a version more could not be
counted. -/
def LeavesRoom (limits : WaitServiceLimits) (showNumber : JsNumber → String)
    (system : WaitSystem) (act : WaitAct) : Prop :=
  (∀ id, system.files.version id + 1 < JsNumber.maxSafe) ∧
    match act with
    | .create _ input fresh timestamp =>
        Endable limits showNumber (firstRecord limits input fresh timestamp)
    | _ => True

/-- The result is a record of this lifecycle that is read back once it is stored. -/
def EndsAs (host : WaitHost) (id : String) (held : VersionedState WaitRecord)
    (lifecycle : WaitLifecycle) (result : Except WaitServiceError WaitRecord) : Prop :=
  ∃ record, result = .ok record ∧ record.lifecycle = lifecycle ∧
    currentRecord host (some ⟨held.version + 1, record⟩) id = .ok record

/-! ## What an act does to a stored record -/

/-- A pending record is stamped or settled; a settled one stays. -/
inductive Rewritten (value : WaitRecord) : WaitRecord → Prop
  | same : Rewritten value value
  | settled {record : WaitRecord} (own : record.id = value.id)
      (terminal : record.lifecycle ≠ .pending) : Rewritten value record
  | stamped (timestamp : JsNumber) (witness : Option WaitReconciliation) :
      Rewritten value { value with
        updatedAt := timestamp
        reconciliation := witness }

/-- A record that is stored was stored before, is the first one of a wait or rewrites the one
before. -/
inductive Comes (system : WaitSystem) (act : WaitAct) (id : String) :
    VersionedState WaitRecord → Prop
  | stood {held : VersionedState WaitRecord} (stored : system.files id = some held) :
      Comes system act id held
  | created {host : WaitHost} {input : CreateWaitInput} {fresh : String} {timestamp : JsNumber}
      (made : act = .create host input fresh timestamp)
      (own : (firstRecord host.limits input fresh timestamp).id = id) :
      Comes system act id ⟨1, firstRecord host.limits input fresh timestamp⟩
  | rewritten {held : VersionedState WaitRecord} {record : WaitRecord}
      (stored : system.files id = some held) (rewrites : Rewritten held.value record) :
      Comes system act id ⟨held.version + 1, record⟩

section Steps

variable {system : WaitSystem} {host : WaitHost} {id other operationId : String}
  {timestamp : JsNumber} {record : WaitRecord} {act : WaitAct} {admitted : Bool}
  {current : Option (VersionedState WaitRecord)}

theorem create_eq_ok {input : CreateWaitInput} {fresh : String}
    (h : create host input fresh timestamp = .ok record) :
    record = firstRecord host.limits input fresh timestamp := by
  simp only [create, bind_eq_ok] at h
  obtain ⟨_, _, _, _, _, _, _, _, _, _, made⟩ := h
  exact (pure_eq_ok.mp made).symm

theorem rewritten_transition {lifecycle : WaitLifecycle} {evidence : WaitEvidenceCode}
    (h : transition host id lifecycle evidence timestamp current = .ok record)
    (settles : lifecycle ≠ .pending) :
    ∃ held, current = some held ∧ Rewritten held.value record := by
  obtain ⟨version, value, rfl, rfl | ⟨_, rfl⟩⟩ := transition_cases h
  · exact ⟨_, rfl, .same⟩
  · exact ⟨_, rfl, .settled rfl settles⟩

theorem rewritten_claim (h : claim host id operationId timestamp current = .ok record) :
    ∃ held, current = some held ∧ Rewritten held.value record := by
  obtain ⟨version, value, rfl, _, _, rfl⟩ := claim_cases h
  exact ⟨_, rfl, .stamped timestamp _⟩

theorem rewritten_commitResult {observed : WaitLifecycle × Option WaitEvidenceCode}
    (h : commitResult host id operationId observed timestamp current = .ok record) :
    ∃ held, current = some held ∧ Rewritten held.value record := by
  have changed := mutate_eq_ok h
  simp only [bind_eq_ok, require_eq_ok] at changed
  obtain ⟨value, read, _, _, _, _, written⟩ := changed
  obtain ⟨version, rfl⟩ := currentRecord_eq_ok read
  refine ⟨_, rfl, ?_⟩
  split_ifs at written with waits
  · obtain rfl := pure_eq_ok.mp written
    exact .stamped timestamp none
  · obtain rfl := pure_eq_ok.mp written
    exact .settled rfl waits

theorem Comes.of_store {held now : VersionedState WaitRecord} (before : system.files other = some held)
    (rewrites : Rewritten held.value record)
    (found : (system.store other record).files id = some now) : Comes system act id now := by
  by_cases same : id = other
  · subst same
    simp only [WaitSystem.store, Function.update_self, Option.some.injEq] at found
    rw [← found, VersionedFiles.version_eq before]
    exact .rewritten before rewrites
  · simp only [WaitSystem.store, Function.update_of_ne same] at found
    exact .stood found

theorem Comes.of_written {result : Except WaitServiceError WaitRecord} {now : VersionedState WaitRecord}
    (rewrites : ∀ record, result = .ok record →
      ∃ held, system.files other = some held ∧ Rewritten held.value record)
    (found : ((system.written other admitted result).getD system).files id = some now) :
    Comes system act id now := by
  cases made : system.written other admitted result with
  | none =>
      rw [made] at found
      exact .stood found
  | some after =>
      obtain ⟨record, returned, rfl⟩ := written_eq_some made
      obtain ⟨held, before, settled⟩ := rewrites record returned
      rw [made] at found
      exact .of_store before settled found

theorem comes_of_step {made : AdmittedAct} {now : VersionedState WaitRecord}
    (found : (system.step made).files id = some now) : Comes system made.act id now := by
  obtain ⟨act, admitted⟩ := made
  cases act with
  | create host input fresh timestamp =>
      simp only [WaitSystem.step] at found
      split at found
      · exact .stood found
      · next record created =>
          split at found
          · split at found
            · exact .stood found
            · next files swapped =>
                obtain ⟨-, rfl⟩ := VersionedFiles.swap_eq_some swapped
                obtain rfl := create_eq_ok created
                by_cases same : id = (firstRecord host.limits input fresh timestamp).id
                · subst same
                  simp only [Function.update_self, Option.some.injEq] at found
                  rw [← found]
                  exact .created rfl rfl
                · simp only [Function.update_of_ne same] at found
                  exact .stood found
          · exact .stood found
  | cancel host other timestamp =>
      exact .of_written (fun record returned => rewritten_transition returned (by decide)) found
  | reconcile call host other operationId timestamp =>
      simp only [WaitSystem.step] at found
      split at found
      · exact .stood found
      · split at found
        all_goals exact .stood found
  | expire call =>
      simp only [WaitSystem.step] at found
      split at found
      · exact .of_written (fun record returned => rewritten_transition returned (by decide)) found
      · exact .stood found
  | claim call =>
      simp only [WaitSystem.step] at found
      split at found
      · split at found
        · exact .stood found
        · next record claimed =>
            obtain ⟨held, before, stamped⟩ := rewritten_claim claimed
            split at found
            · exact .of_store before stamped found
            · exact .stood found
      · exact .stood found
  | dispatch call =>
      simp only [WaitSystem.step] at found
      split at found
      · split at found
        all_goals exact .stood found
      · exact .stood found
  | reply call reply timestamp =>
      simp only [WaitSystem.step] at found
      split at found
      · split at found
        · exact .stood found
        · next after committed =>
            rw [WaitSystem.committed.eq_def] at committed
            split at committed
            · cases committed
            · split at committed
              · cases committed
              · obtain ⟨record, returned, rfl⟩ := written_eq_some committed
                obtain ⟨held, before, rewrites⟩ := rewritten_commitResult returned
                exact .of_store before rewrites found
      · exact .stood found
  | crash call => exact .stood found

end Steps

/-! ## Pending waits stay endable -/

section Open

variable (limits : WaitServiceLimits) (showNumber : JsNumber → String)

/-- Every stored record is that of its own wait, can be counted on and can be ended if it is
pending. -/
structure Open (system : WaitSystem) : Prop where
  own : ∀ id, ∀ held ∈ system.files id, held.value.id = id
  counted : ∀ id, ∀ held ∈ system.files id, 0 < held.version ∧ held.version < JsNumber.maxSafe
  endable : ∀ id, ∀ held ∈ system.files id, held.value.lifecycle = .pending →
    Endable limits showNumber held.value

variable {limits showNumber} {system : WaitSystem} {record : WaitRecord}

/-- The end of a record does not depend on when it was last stamped, nor on its witness. -/
theorem Endable.stamp (h : Endable limits showNumber record) (timestamp : JsNumber)
    (witness : Option WaitReconciliation) : Endable limits showNumber { record with
      updatedAt := timestamp
      reconciliation := witness } :=
  ⟨h.cancels, h.expires⟩

namespace Open

theorem start : Open limits showNumber .start where
  own _ _ stored := by cases stored
  counted _ _ stored := by cases stored
  endable _ _ stored := by cases stored

theorem step (h : Open limits showNumber system) {made : AdmittedAct}
    (regular : Regular limits showNumber made.act)
    (room : LeavesRoom limits showNumber system made.act) :
    Open limits showNumber (system.step made) where
  own id now found := by
    cases comes_of_step found with
    | stood stored => exact h.own id _ stored
    | created _ own => exact own
    | @rewritten held record stored rewrites =>
        have same := h.own id held stored
        cases rewrites with
        | same => exact same
        | settled own _ => exact own.trans same
        | stamped timestamp witness => exact same
  counted id now found := by
    cases comes_of_step found with
    | stood stored => exact h.counted id _ stored
    | created _ _ =>
        have first : 1 < JsNumber.maxSafe := by decide
        exact ⟨Nat.one_pos, first⟩
    | @rewritten held record stored _ =>
        have counted := room.1 id
        rw [VersionedFiles.version_eq stored] at counted
        exact ⟨Nat.succ_pos _, counted⟩
  endable id now found pending := by
    cases comes_of_step found with
    | stood stored => exact h.endable id _ stored pending
    | @created host input fresh timestamp same _ =>
        rw [same] at regular
        obtain ⟨⟨rfl, rfl⟩, _⟩ := regular
        have fits := room.2
        rw [same] at fits
        exact fits
    | @rewritten held record stored rewrites =>
        cases rewrites with
        | same => exact h.endable id held stored pending
        | settled _ terminal => exact absurd pending terminal
        | stamped timestamp witness => exact (h.endable id held stored pending).stamp timestamp witness

end Open

end Open

/-! ## Ending a wait -/

section Ends

variable {host : WaitHost} {id : String} {held : VersionedState WaitRecord}
  {lifecycle : WaitLifecycle} {evidence : WaitEvidenceCode} {timestamp : JsNumber}

/-- A pending record that is read is ended if its end fits. -/
theorem endsAs_transition (kept : Kept host.limits host.showNumber held)
    (counted : 0 < held.version ∧ held.version < JsNumber.maxSafe)
    (pending : held.value.lifecycle = .pending) (time : safeTimestamp timestamp = true)
    (fits : persistedBytes host.showNumber (append host.limits held.value lifecycle timestamp
      (some evidence)) (held.version + 1) ≤ host.limits.maxPersistedStateBytes) :
    EndsAs host id held lifecycle
      (transition host id lifecycle evidence timestamp (some held)) := by
  have numbered : positiveInteger (.finite held.version) = true :=
    positiveInteger_of_le counted.1 (Nat.le_of_lt counted.2)
  have following : positiveInteger (.finite (held.version + 1 : Nat)) = true :=
    positiveInteger_of_le (Nat.succ_pos _) counted.2
  have valid : validateRecord host held.value held.version = .ok () :=
    validateRecord_eq_ok.mpr ⟨kept.valid, kept.size⟩
  have valid' : validateRecord host (append host.limits held.value lifecycle timestamp
      (some evidence)) (held.version + 1) = .ok () :=
    validateRecord_eq_ok.mpr ⟨kept.valid.append time kept.short.next, fits⟩
  have read : currentRecord host (some held) id = .ok held.value :=
    currentRecord_of_valid (if_pos numbered) valid
  have next : nextEnvelopeVersion (some held) id = .ok (held.version + 1) := by
    rw [nextEnvelopeVersion, envelopeVersion, if_pos numbered]
    rfl
  refine ⟨_, mutate_of_valid ?_ next valid', rfl, currentRecord_of_valid (if_pos following) valid'⟩
  refine bind_eq_ok.mpr ⟨_, read, ?_⟩
  rw [if_neg (by rw [pending]; decide)]
  rfl

/-- An elapsed deadline is what a reconcile sees first, a dispatch in flight or not. -/
theorem planReconcile_expires (kept : Kept host.limits host.showNumber held)
    (own : held.value.id = id) (counted : 0 < held.version ∧ held.version < JsNumber.maxSafe)
    (pending : held.value.lifecycle = .pending) (late : overdue held.value timestamp = true) :
    planReconcile host id timestamp (some held) = .ok .expires := by
  have numbered : positiveInteger (.finite held.version) = true :=
    positiveInteger_of_le counted.1 (Nat.le_of_lt counted.2)
  have read : currentRecord host (some held) id = .ok held.value :=
    currentRecord_of_valid (if_pos numbered) (validateRecord_eq_ok.mpr ⟨kept.valid, kept.size⟩)
  refine require_bind_eq_ok.mpr ⟨own ▸ kept.valid.named, bind_eq_ok.mpr ⟨_, read, ?_⟩⟩
  rw [if_neg (by rw [pending]; decide), if_pos late]
  rfl

theorem deadline_of_overdue {record : WaitRecord} (late : overdue record timestamp = true) :
    record.deadlineAt.isSome = true := by
  unfold overdue at late
  split at late
  · next deadline held => rw [held]; rfl
  · cases late

variable {limits : WaitServiceLimits} {showNumber : JsNumber → String} {system : WaitSystem}
  {acts : List AdmittedAct}

/-- In every run whose creations leave room, every pending wait can be cancelled, and an elapsed
deadline settles it, whether a dispatch is resolved or not. -/
theorem waits_can_be_ended
    (run : Run (Guarded WaitSystem.Steps fun before made => Regular limits showNumber made.act ∧
      LeavesRoom limits showNumber before made.act) .start acts system)
    (configured : Configured limits showNumber host) (stored : system.files id = some held)
    (pending : held.value.lifecycle = .pending) (time : safeTimestamp timestamp = true) :
    EndsAs host id held .cancelled (cancel host id timestamp (system.files id)) ∧
      (overdue held.value timestamp = true →
        planReconcile host id timestamp (system.files id) = .ok .expires ∧
          EndsAs host id held .timedOut
            (transition host id .timedOut .deadlineExceeded timestamp (system.files id))) := by
  obtain ⟨rfl, rfl⟩ := configured
  have readable : Readable host.limits host.showNumber system ∧
      Open host.limits host.showNumber system := by
    refine run.invariant (I := fun system => Readable host.limits host.showNumber system ∧
      Open host.limits host.showNumber system) ?_ ⟨.start, .start⟩
    rintro before made after ⟨readable, endable⟩ ⟨⟨regular, room⟩, rfl⟩
    exact ⟨readable.step regular, endable.step regular room⟩
  have kept := readable.1.kept id held stored
  have counted := readable.2.counted id held stored
  have endable := readable.2.endable id held stored pending
  have following : positiveInteger (.finite (held.version + 1 : Nat)) = true :=
    positiveInteger_of_le (Nat.succ_pos _) counted.2
  have witness : safeWitness held.value.reconciliation = true := kept.valid.witness
  rw [stored]
  refine ⟨endsAs_transition kept counted pending time
    (endable.cancels _ _ _ witness time following), fun late => ⟨?_, ?_⟩⟩
  · exact planReconcile_expires kept (readable.2.own id held stored) counted pending late
  · exact endsAs_transition kept counted pending time
      (endable.expires (deadline_of_overdue late) _ _ _ witness time following)

end Ends

/-! ## A wait with room for its end -/

section Printed

/-- `Number.prototype.toString`, for whole numbers. -/
def printWhole : JsNumber → String
  | .finite q => toString q.num
  | .nan => "NaN"
  | .infinity negative => if negative then "-Infinity" else "Infinity"

/-- The bytes of a number in a record. -/
def numeralBytes (value : JsNumber) : Nat :=
  byteLength ((Json.num value).stringify printWhole)

theorem numeralBytes_whole {n : Nat} (small : n ≤ JsNumber.maxSafe) :
    numeralBytes (.finite n) ≤ 64 := by
  have digits : (Nat.repr n).length ≤ 16 := by
    apply Nat.repr_length n 16 (by decide)
    calc
      n ≤ JsNumber.maxSafe := small
      _ < 10 ^ 16 := by decide
  calc
    numeralBytes (.finite n) = byteLength (Nat.repr n) := rfl
    _ ≤ (Nat.repr n).length * 4 := byteLength_le _
    _ ≤ 64 := by omega

theorem whole_of_safeTimestamp {value : JsNumber} (time : safeTimestamp value = true) :
    ∃ n : Nat, n ≤ JsNumber.maxSafe ∧ value = .finite n := by
  cases value with
  | nan => cases time
  | infinity negative => cases time
  | finite q =>
      simp only [safeTimestamp, JsNumber.isSafeInteger, JsNumber.atLeast, Bool.and_eq_true,
        beq_iff_eq, decide_eq_true_eq] at time
      obtain ⟨⟨whole, small⟩, positive⟩ := time
      refine ⟨q.num.natAbs, small, ?_⟩
      have sign : 0 ≤ q.num := Rat.num_nonneg.mpr positive
      congr 1
      refine Rat.ext ?_ whole
      rw [Rat.num_natCast]
      exact (Int.natAbs_of_nonneg sign).symm

theorem numeralBytes_le {value : JsNumber} (time : safeTimestamp value = true) :
    numeralBytes value ≤ 64 := by
  obtain ⟨n, small, rfl⟩ := whole_of_safeTimestamp time
  exact numeralBytes_whole small

/-- The size of the ended record grows with the numbers and the witness alone. -/
theorem ended_bytes_le (witness : Option WaitReconciliation) (timestamp : JsNumber)
    (version : Nat) :
    persistedBytes printWhole (append defaultWaitServiceLimits
        { openedWait with reconciliation := witness } .cancelled timestamp (some .cancelled))
        version ≤
      persistedBytes printWhole (append defaultWaitServiceLimits
        { openedWait with reconciliation := some ⟨"", 1⟩ } .cancelled 1 (some .cancelled)) 1 +
      (numeralBytes (.finite version) + 4 * numeralBytes timestamp +
        witness.elim 0 fun held =>
          byteLength (Json.quote held.operationId) + numeralBytes held.dispatchedAt) := by
  have bytes (value : JsNumber) : byteLength (if value.isFinite = true then printWhole value
      else "null") = numeralBytes value := by
    rw [numeralBytes, Json.stringify]
  cases witness
  all_goals
    simp only [persistedBytes, WaitRecord.toJson, WaitEvent.toJson, WaitEvidence.toJson, present,
      append, openedWait, defaultWaitServiceLimits, Json.stringify, Json.stringifyFields,
      Json.stringifyItems, List.map_cons, List.map_nil, Option.map_some, Option.map_none,
      Option.toList_some, Option.toList_none, List.cons_append, List.nil_append, List.append_nil,
      Json.byteLength_objectText, ne_eq, reduceCtorEq, not_false_eq_true, List.sum_cons,
      List.sum_nil, List.length_cons, List.length_nil, List.drop_zero, Nat.reduceAdd, Nat.reduceSub,
      Json.arrayText, byteLength_append, String.intercalate_singleton,
      String.intercalate_cons_cons, bytes, Option.elim_none, Option.elim_some]
    omega

theorem endable_openedWait : Endable defaultWaitServiceLimits printWhole openedWait where
  cancels := by
    intro witness timestamp version safe time counted
    have small : persistedBytes printWhole (append defaultWaitServiceLimits
        { openedWait with reconciliation := some ⟨"", 1⟩ } .cancelled 1 (some .cancelled)) 1 ≤
          1000 := by
      decide +kernel
    have grown := ended_bytes_le witness timestamp version
    have late := numeralBytes_le time
    have number : numeralBytes (.finite version) ≤ 64 := by
      simp only [positiveInteger, JsNumber.isSafeInteger, Bool.and_eq_true] at counted
      exact numeralBytes_whole (by simpa using of_decide_eq_true counted.1.2)
    have held : (witness.elim 0 fun held =>
        byteLength (Json.quote held.operationId) + numeralBytes held.dispatchedAt) ≤ 3200 := by
      cases witness with
      | none => exact Nat.zero_le _
      | some held =>
          simp only [safeWitness, Option.all_some, Bool.and_eq_true] at safe
          have short := Regex.length_of_test_whole safe.1
          have quoted := Json.byteLength_quote_le held.operationId
          have sent := numeralBytes_le safe.2
          simp only [Option.elim_some]
          omega
    calc
      _ ≤ _ := grown
      _ ≤ 64 * 1024 := by omega
  expires := nofun

/-- A service that prints whole numbers, with a ceiling. -/
def printingHost (limits : WaitServiceLimits) : WaitHost :=
  ⟨limits, [⟨"timer", 1, fun _ _ => true⟩], printWhole⟩

def openedInput : CreateWaitInput :=
  ⟨openedWait.toWaitSpecification, some "w"⟩

/-- The wait of the service right after its creation. -/
def openedSystem (limits : WaitServiceLimits) : WaitSystem :=
  WaitSystem.start.step ⟨.create (printingHost limits) openedInput "" 1, true⟩

theorem openedSystem_stored {limits : WaitServiceLimits}
    (first : firstRecord limits openedInput "" 1 = openedWait)
    (valid : validateRecord (printingHost limits) openedWait 1 = .ok ()) :
    (openedSystem limits).files "w" = some ⟨1, openedWait⟩ := by
  have created : create (printingHost limits) openedInput "" 1 = .ok openedWait :=
    create_openedWait rfl first valid
  have named : openedWait.id = "w" := rfl
  rw [openedSystem, WaitSystem.step_create created rfl]
  simp [named]

/-- The wait of a service with the default limits. -/
theorem waits_can_be_ended_openedWait :
    EndsAs (printingHost defaultWaitServiceLimits) "w" ⟨1, openedWait⟩ .cancelled
      (cancel (printingHost defaultWaitServiceLimits) "w" 2
        ((openedSystem defaultWaitServiceLimits).files "w")) := by
  have stored : (openedSystem defaultWaitServiceLimits).files "w" = some ⟨1, openedWait⟩ :=
    openedSystem_stored rfl (by decide +kernel)
  have run : Run (Guarded WaitSystem.Steps fun before made =>
      Regular defaultWaitServiceLimits printWhole made.act ∧
        LeavesRoom defaultWaitServiceLimits printWhole before made.act) .start
      [⟨.create (printingHost defaultWaitServiceLimits) openedInput "" 1, true⟩]
      (openedSystem defaultWaitServiceLimits) := by
    refine .single ⟨⟨⟨⟨rfl, rfl⟩, by decide⟩, fun id => ?_, endable_openedWait⟩, rfl⟩
    have first : 0 + 1 < JsNumber.maxSafe := by decide
    exact first
  exact (waits_can_be_ended run ⟨rfl, rfl⟩ stored rfl (by decide)).1

/-- A ceiling that the first record of the wait just meets. -/
def tightLimits : WaitServiceLimits :=
  ⟨32, 8, persistedBytes printWhole openedWait 1, 100, by decide +kernel⟩

/-- The wait is created and stored, and no cancellation of it succeeds. -/
theorem waits_can_be_ended_refuted :
    (openedSystem tightLimits).files "w" = some ⟨1, openedWait⟩ ∧
      openedWait.lifecycle = .pending ∧
      ¬ EndsAs (printingHost tightLimits) "w" ⟨1, openedWait⟩ .cancelled
        (cancel (printingHost tightLimits) "w" 2 ((openedSystem tightLimits).files "w")) := by
  have stored : (openedSystem tightLimits).files "w" = some ⟨1, openedWait⟩ :=
    openedSystem_stored rfl (by decide +kernel)
  refine ⟨stored, rfl, ?_⟩
  rintro ⟨record, cancelled, ends, _⟩
  rw [stored, cancel] at cancelled
  obtain ⟨version, value, same, changed⟩ := transition_cases cancelled
  have own : openedWait = value := congrArg VersionedState.value (Option.some.inj same)
  rw [← own] at changed
  rw [transition] at cancelled
  have size := mutate_size cancelled
  have exceeds : persistedBytes printWhole openedWait 1 <
      persistedBytes printWhole (append tightLimits openedWait .cancelled 2 (some .cancelled)) 2 := by
    decide +kernel
  rcases changed with rfl | ⟨_, rfl⟩
  · cases ends
  · exact absurd size (Nat.not_le.mpr exceeds)

end Printed

end AdCoder.Waits
