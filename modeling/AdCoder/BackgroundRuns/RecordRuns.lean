import AdCoder.BackgroundRuns.RecordFits

/-!
# Records that are read back

While what comes from outside is acceptable to the reader and the counters stay
safe integers, every record that a manager writes is read back as it was
written. The stages and verdicts that the reader does not list break this.
-/

namespace AdCoder.BackgroundRuns

open Foundation Orchestration ProjectOperations

/-! ## What the managers and the record keep -/

/-- A record of the run that its reader accepts. -/
structure PersistedEntry.Own (config : BackgroundRunConfig) (record : PersistedEntry) : Prop where
  fits : record.Fits
  run : record.runId = config.runId

/-- The copy of a manager is acceptable. -/
def Manager.Fits (config : BackgroundRunConfig) (m : Manager) : Prop :=
  ∀ e, m.entry = some e → e.Fits config

/-- What an access takes from outside is acceptable. -/
def Point.Fitting (config : BackgroundRunConfig) (record : Option PersistedEntry) (e : Entry) :
    Point → Prop
  | idle | reading _ => True
  | reaping _ => ∀ found ∈ record, found.nextSequence + 1 ≤ JsNumber.maxSafe
  | claiming workerId process => FitsString workerId ∧ process.Fits
  | writing work =>
      work.Detached e ∧ e.Room work.appends.length ∧ work.Inputs config e

instance (config : BackgroundRunConfig) (record : Option PersistedEntry) (e : Entry) :
    (point : Point) → Decidable (point.Fitting config record e)
  | .idle | .reading _ => .isTrue trivial
  | .reaping _ =>
      inferInstanceAs (Decidable (∀ found ∈ record, found.nextSequence + 1 ≤ JsNumber.maxSafe))
  | .claiming workerId process => inferInstanceAs (Decidable (FitsString workerId ∧ process.Fits))
  | .writing work => inferInstanceAs (Decidable (_ ∧ _ ∧ work.Inputs config e))

variable {config : BackgroundRunConfig} {now : Nat} {record : Option PersistedEntry}
  {m : Manager} {e : Entry}

theorem Manager.Fits.of {m m' : Manager} (fits : m.Fits config) (same : m'.entry = m.entry) :
    m'.Fits config := by
  intro e found
  exact fits e (same ▸ found)

theorem Manager.fits_some (fits : e.Fits config) (found : m.entry = some e) :
    m.Fits config := by
  intro e' h
  cases found.symm.trans h
  exact fits

theorem Manager.resume_entry (m : Manager) (e : Entry) (call : Call) :
    (m.resume config e call).entry = m.entry := by
  cases call <;> rfl

/-- A record that is read back is a copy that fits. -/
theorem Entry.fits_ofRecord {record : PersistedEntry} (own : record.Own config)
    (owned : record.ownerId = config.ownerId) (e : Entry) : (e.ofRecord record).Fits config := by
  obtain ⟨fits, run⟩ := own
  constructor
  · show FitsString config.ownerId
    rw [← owned]
    exact fits.owner
  · show FitsString config.runId
    rw [← run]
    exact fits.run
  · show ∀ event ∈ record.events, event.Fits config.runId
    rw [← run]
    exact fits.events
  · exact fits.next
  · exact fits.ordered
  · exact fits.lease
  · exact fits.pause
  · show ∀ outcome, record.outcome = some outcome →
      outcome.Fits config.runId ∧ outcome.lifecycle = record.lifecycle
    rw [← run]
    exact fits.outcome
  · rintro wake ⟨⟩ w hw
    cases held : record.wake with
    | none => simp [Entry.ofRecord, held] at hw
    | some wake => exact fits.wake wake held w (by simpa [Entry.ofRecord, held] using hw)
  · exact fits.process
  · exact fits.terminal
  · exact fits.metrics

theorem fits_loadedEntry {record : PersistedEntry} (own : record.Own config)
    (owned : record.ownerId = config.ownerId) : (loadedEntry record).Fits config :=
  { Entry.fits_ofRecord own owned (loadedEntry record) with process := (by rintro _ ⟨⟩) }

/-- A written copy is read back. -/
theorem Entry.Fits.persisted (fits : e.Fits config)
    (own : ∀ found ∈ record, found.Own config) : (e.persisted config record).Own config := by
  refine ⟨?_, rfl⟩
  have windows (w : WakeEntry)
      (hw : w ∈ mergeWindows ((record.bind (·.wake)).getD []) e.wake) : w.Fits := by
    refine mergeWindows_fits (fun v hv => ?_) fits.windows w hw
    cases record with
    | none => simp at hv
    | some found =>
        cases held : found.wake with
        | none => simp [held] at hv
        | some wake => exact (own found rfl).fits.wake wake held v (by simpa [held] using hv)
  have merged : mergeWake (record.bind (·.wake)) (some e.wake) =
      some (mergeWindows ((record.bind (·.wake)).getD []) e.wake) := by
    cases record.bind (·.wake) <;> rfl
  constructor
  · exact fits.owner
  · exact fits.run
  · exact fits.events
  · exact fits.next
  · exact fits.ordered
  · exact fits.lease
  · exact fits.pause
  · exact fits.outcome
  · intro wake h
    cases merged.symm.trans h
    exact windows
  · intro process h
    cases held : e.process with
    | some own =>
        simp only [Entry.persisted, held, Option.some_or, Option.some.injEq] at h
        exact h ▸ fits.process own held
    | none =>
        simp only [Entry.persisted, held, Option.none_or] at h
        cases record with
        | none => cases h
        | some found => exact (own found rfl).fits.process process h
  · exact fits.terminal
  · exact fits.metrics

/-- A request that is reaped is read back. -/
theorem PersistedEntry.Own.reaped {record : PersistedEntry} (own : record.Own config)
    (clock : now ≤ JsNumber.maxSafe) (room : record.nextSequence + 1 ≤ JsNumber.maxSafe) :
    (BackgroundRuns.reaped config now record).Own config := by
  obtain ⟨fits, run⟩ := own
  have below : record.nextSequence ≤ JsNumber.maxSafe := fits.next.2
  refine ⟨?_, run⟩
  constructor
  · exact fits.owner
  · exact fits.run
  · intro event h
    rcases List.mem_append.mp h with old | new
    · exact fits.events event old
    · obtain rfl := List.mem_singleton.mp new
      exact ⟨run.symm, by rintro _ ⟨⟩, ⟨fits.next.1, below⟩, clock, by rintro _ ⟨⟩,
        by rintro _ ⟨⟩; exact fits.metrics⟩
  · exact ⟨Nat.le_add_left .., room⟩
  · exact ordered_append fits.ordered rfl
  · rintro _ ⟨⟩
  · exact fits.pause
  · rintro _ ⟨⟩
    exact ⟨⟨run.symm, (by decide : BackgroundLifecycle.failed ∈ BackgroundLifecycle.terminal),
      fits.metrics, by rintro _ ⟨⟩, claimDeadlineDetail_fits, by rintro _ ⟨⟩, by rintro _ ⟨⟩,
      by rintro _ ⟨⟩⟩, rfl⟩
  · rintro wake ⟨⟩ w hw
    rcases List.mem_append.mp hw with old | new
    · cases held : record.wake with
      | none => simp [held] at old
      | some wake => exact fits.wake wake held w (by simpa [held] using old)
    · obtain rfl := List.mem_singleton.mp new
      exact openWindow_fits clock .failed
  · exact fits.process
  · rfl
  · exact fits.metrics

/-! ## Steps -/

/-- The manager's copy and the record stay acceptable. -/
def Kept (config : BackgroundRunConfig) (after : Manager × Option PersistedEntry) : Prop :=
  after.1.Fits config ∧ ∀ found ∈ after.2, found.Own config

theorem Manager.kept_same {m' : Manager} (fits : m.Fits config)
    (own : ∀ found ∈ record, found.Own config) (same : m'.entry = m.entry) :
    Kept config (m', record) :=
  ⟨fits.of same, own⟩

theorem Manager.fits_load (own : ∀ found ∈ record, found.Own config) :
    (Manager.load config now record).Fits config := by
  have empty : Manager.Fits config {} := by rintro _ ⟨⟩
  unfold Manager.load
  split
  · exact empty
  · rename_i found
    split
    · exact empty
    · rename_i persisted parsed
      obtain ⟨-, back⟩ := (found.yields persisted).mp parsed
      subst back
      split
      · exact empty
      · rename_i owned
        have fits := fits_loadedEntry (own persisted rfl) (by simpa using owned)
        split
        · exact fits_some fits rfl
        · split
          · exact fits_some fits rfl
          · exact fits_some fits rfl

theorem Manager.Fits.refresh (fits : m.Fits config) (own : ∀ found ∈ record, found.Own config)
    (call : Call) : (m.refresh config now record e call).Fits config := by
  unfold Manager.refresh
  split
  · exact fits.of (m.resume_entry e call)
  · rename_i found
    split
    · unfold Manager.unreadable
      split
      · exact fits.of (m.resume_entry e _)
      · exact fits
    · rename_i persisted parsed
      obtain ⟨-, back⟩ := (found.yields persisted).mp parsed
      subst back
      split
      · exact fits.of (m.resume_entry e call)
      · rename_i owned
        have copied := Entry.fits_ofRecord (own persisted rfl) (by simpa using owned) e
        dsimp only
        split
        · exact fits_some copied rfl
        · exact fits_some copied (resume_entry ..)

theorem Manager.kept_reap (fits : e.Fits config) (own : ∀ found ∈ record, found.Own config)
    (clock : now ≤ JsNumber.maxSafe)
    (room : ∀ found ∈ record, found.nextSequence + 1 ≤ JsNumber.maxSafe) (call : Call) :
    Kept config (m.reap config now record e call) := by
  have copied : Entry.Fits config { e with cancelled := true } := { fits with }
  unfold Manager.reap
  dsimp only
  split
  · exact ⟨fits_some copied (resume_entry ..), own⟩
  · rename_i found
    split
    · refine ⟨fits_some copied rfl, ?_⟩
      rintro _ ⟨⟩
      exact (own found rfl).reaped clock (room found rfl)
    · exact ⟨fits_some copied (resume_entry ..), own⟩

theorem Manager.kept_claim (fits : e.Fits config) (found : m.entry = some e)
    (own : ∀ found ∈ record, found.Own config) (clock : now ≤ JsNumber.maxSafe)
    {workerId : String} {process : RunProcessIdentity} (worker : FitsString workerId)
    (identity : process.Fits) : Kept config (m.claim now record e workerId process) := by
  have kept : Kept config ({ m with point := .idle }, record) := kept_same (fits_some fits found) own rfl
  have leased (lease : RunLease) (h : some ⟨workerId, now⟩ = some lease) : lease.Fits := by
    cases h
    exact ⟨worker, clock⟩
  have identified (known : RunProcessIdentity) (h : some process = some known) : known.Fits := by
    cases h
    exact identity
  unfold Manager.claim
  split
  · exact kept
  · rename_i held
    split
    · have copied : Entry.Fits config { e with
          active := true, lease := some ⟨workerId, now⟩, process := some process } :=
        { fits with lease := leased, process := identified }
      refine ⟨fits_some copied rfl, ?_⟩
      rintro _ ⟨⟩
      exact ⟨{ (own held rfl).fits with lease := leased, process := identified },
        (own held rfl).run⟩
    · exact kept

theorem Manager.kept_write {work : Work} (fits : e.Fits config)
    (own : ∀ found ∈ record, found.Own config) (suits : work.Suits e)
    (clock : now ≤ JsNumber.maxSafe) (room : e.Room work.appends.length)
    (inputs : work.Inputs config e) : Kept config (m.write config now record e work) := by
  have after := Work.run_fits fits suits clock room inputs
  refine ⟨fits_some after rfl, ?_⟩
  rintro _ ⟨⟩
  exact after.persisted own

theorem Manager.kept_access (sound : m.Sound) (fits : m.Fits config) (found : m.entry = some e)
    (own : ∀ found ∈ record, found.Own config) (clock : now ≤ JsNumber.maxSafe)
    (fitting : m.point.Fitting config record e) : Kept config (m.access config now record e) := by
  have point := sound.point e found
  have copied := fits e found
  unfold Manager.access
  split
  · exact ⟨fits, own⟩
  · exact ⟨fits.refresh own _, own⟩
  · rename_i call next
    rw [next] at fitting
    exact kept_reap copied own clock fitting call
  · rename_i workerId process next
    rw [next] at fitting
    exact kept_claim copied found own clock fitting.1 fitting.2
  · rename_i work next
    rw [next] at point fitting
    exact kept_write copied own point clock fitting.2.1 fitting.2.2

theorem Manager.Fits.between (fits : m.Fits config) (found : m.entry = some e) (action : Action) :
    (m.between config e action).Fits config := by
  have copied := fits e found
  cases action with
  | call method =>
      simp only [Manager.between, Manager.call]
      split
      · exact fits.of (m.resume_entry e method)
      · exact fits
  | promise work =>
      simp only [Manager.between, Manager.promise]
      split
      · split
        · exact fits
        · split
          · exact fits
          · have settling : Entry.Fits config { e with progress := .settling } := { copied with }
            exact fits_some settling rfl
      · exact fits
  | settle => simp only [Manager.between]; split <;> exact fits
  | heartbeat => simp only [Manager.between]; split <;> exact fits
  | timeout => simp only [Manager.between]; split <;> exact fits
  | launchFails => simp only [Manager.between]; split <;> exact fits
  | launched => exact fits
  | construct => exact fits
  | access => exact fits
  | mark marks => exact fits

theorem Manager.kept_mark (fits : m.Fits config) (own : ∀ found ∈ record, found.Own config)
    (clock : now ≤ JsNumber.maxSafe) (marks : Marks) :
    Kept config (m.mark now record marks) := by
  constructor
  · intro e' h
    obtain ⟨e, found, rfl⟩ := Option.map_eq_some_iff.mp h
    have copied := fits e found
    refine { copied with wake := ?_ }
    rintro _ ⟨⟩
    exact handle_fits clock marks copied.windows
  · intro after h
    obtain ⟨found, rfl, rfl⟩ := Option.map_eq_some_iff.mp h
    obtain ⟨kept, run⟩ := own found rfl
    refine ⟨{ kept with wake := ?_ }, run⟩
    rintro _ ⟨⟩
    refine handle_fits clock marks fun w hw => ?_
    cases held : found.wake with
    | none => simp [held] at hw
    | some wake => exact kept.wake wake held w (by simpa [held] using hw)

/-- If the next action is an access, what it takes from outside is acceptable. -/
def Manager.Fitting (config : BackgroundRunConfig) (record : Option PersistedEntry) (m : Manager)
    (action : Action) : Prop :=
  action.accesses = true → ∀ e ∈ m.entry, m.point.Fitting config record e

instance (config : BackgroundRunConfig) (record : Option PersistedEntry) (m : Manager)
    (action : Action) : Decidable (m.Fitting config record action) :=
  inferInstanceAs (Decidable (_ → _))

theorem Manager.kept_act (sound : m.Sound) (fits : m.Fits config)
    (own : ∀ found ∈ record, found.Own config) (clock : now ≤ JsNumber.maxSafe) {action : Action}
    (fitting : m.Fitting config record action) : Kept config (m.act config now record action) := by
  rcases m.act_cases config now record action with
    ⟨-, h⟩ | ⟨marks, -, -, h⟩ | ⟨e, rfl, found, h⟩ | ⟨e, found, -, h⟩ | h
  · rw [h]
    exact ⟨fits_load own, own⟩
  · rw [h]
    exact kept_mark fits own clock marks
  · rw [h]
    exact kept_access sound fits found own clock (fitting rfl e found)
  · rw [h]
    exact ⟨fits.between found action, own⟩
  · rw [h]
    exact ⟨fits, own⟩

namespace World

/-- The clock is a safe integer, and what the step takes from outside is acceptable. -/
def Fitting (config : BackgroundRunConfig) (world : World) (event : Event) : Prop :=
  event.now ≤ JsNumber.maxSafe ∧
    (world.managers event.manager).Fitting config world.record event.action

instance (config : BackgroundRunConfig) (world : World) (event : Event) :
    Decidable (world.Fitting config event) := inferInstanceAs (Decidable (_ ∧ _))

/-- Every copy and the record are acceptable, and the promises are sound. -/
structure Fits (config : BackgroundRunConfig) (world : World) : Prop where
  sound : world.Sound
  copies : ∀ p, (world.managers p).Fits config
  record : ∀ found ∈ world.record, found.Own config

variable {world : World} {event : Event}

theorem Fitting.detached (fitting : world.Fitting config event) : world.Detached event := by
  intro accesses e found work next
  have now := fitting.2 accesses e found
  cases point : (world.managers event.manager).point with
  | writing own =>
      rw [point] at now next
      cases next
      exact now.1
  | _ =>
      rw [point] at next
      cases next

theorem Fits.apply (fits : world.Fits config) (fitting : world.Fitting config event) :
    (world.apply config event).Fits config := by
  have kept := Manager.kept_act (fits.sound event.manager) (fits.copies event.manager) fits.record
    fitting.1 fitting.2
  refine ⟨fits.sound.apply config fitting.detached, fun p => ?_, kept.2⟩
  by_cases same : p = event.manager
  · subst same
    simpa [World.apply] using kept.1
  · simpa [World.apply, same] using fits.copies p

/-- A run that has just been requested. -/
theorem fits_initial (owner : FitsString config.ownerId) (run : FitsString config.runId)
    (workerId : Option String) : (initial workerId).Fits config := by
  refine ⟨sound_initial workerId, fun p => ?_, by rintro _ ⟨⟩⟩
  by_cases creator : p = 0
  · subst creator
    refine Manager.fits_some ?_ rfl
    have first : 1 ≤ JsNumber.maxSafe := Nat.succ_le_of_lt (by decide)
    constructor
    · exact owner
    · exact run
    · intro event h
      cases h
    · exact ⟨Nat.le_refl 1, first⟩
    · rfl
    · rintro _ ⟨⟩
    · rintro _ ⟨⟩
    · rintro _ ⟨⟩
    · rintro _ ⟨⟩ w h
      cases h
    · rintro _ ⟨⟩
    · rfl
    · exact ⟨Nat.zero_le _, rfl, rfl⟩
  · simp only [initial, creator, if_false]
    rintro _ ⟨⟩

/-! ## Runs -/

/-- Whatever acceptable things happen, the record is read back as it was written. -/
theorem written_read_back (owner : FitsString config.ownerId) (run : FitsString config.runId)
    {workerId : Option String} {events : List Event} {world : World}
    (happened : Run (Guarded (Steps config) (Fitting config)) (initial workerId) events world)
    {record : PersistedEntry} (written : world.record = some record) :
    parsePersistedEntry record.toJson = .ok record := by
  have fits : world.Fits config := by
    refine happened.invariant (I := Fits config) ?_ (fits_initial owner run workerId)
    rintro before event _ fits ⟨fitting, rfl⟩
    exact fits.apply fitting
  exact (record.yields record).mpr ⟨(fits.record record written).fits, rfl⟩

/-- The executor reports a plan, and the pipeline is approved. -/
def reportedScript : List Event :=
  startedScript ++ [⟨1, 8, .promise (.stage ⟨.plan, .finite 1⟩)⟩, ⟨1, 8, .access⟩,
    ⟨1, 9, .promise (.complete ⟨[⟨.plan, .finite 1⟩], .finite 1, true, 1, some .approved, none⟩)⟩,
    ⟨1, 9, .access⟩]

theorem written_read_back_reportedScript : ∃ record,
    (reportedScript.foldl (apply plainConfig) (initial none)).record = some record ∧
    record.lifecycle = .completed ∧ parsePersistedEntry record.toJson = .ok record := by
  have completed : (reportedScript.foldl (apply plainConfig) (initial none)).record.map
      (·.lifecycle) = some .completed := by decide +kernel
  obtain ⟨record, written, lifecycle⟩ := Option.map_eq_some_iff.mp completed
  have happened := Run.guarded_foldl (fun _ _ => of_decide_eq_true) (by decide +kernel :
    Run.checked (apply plainConfig) (fun world event => decide (world.Fitting plainConfig event))
      (initial none) reportedScript = true)
  exact ⟨record, written, lifecycle,
    written_read_back (by decide +kernel) (by decide +kernel) happened written⟩

/-- The executor reports the step of the gates. -/
def gatesScript : List Event :=
  startedScript ++ [⟨1, 8, .promise (.stage ⟨.gates, .finite 0⟩)⟩, ⟨1, 8, .access⟩]

theorem written_read_back_refuted :
    ¬ ∀ config workerId events world record,
      FitsString config.ownerId → FitsString config.runId →
      Run (Steps config) (initial workerId) events world → world.record = some record →
      parsePersistedEntry record.toJson = .ok record := by
  intro accepted
  have reported : (gatesScript.foldl (apply plainConfig) (initial none)).record.map
      (fun record => record.events.any (·.stage == some .gates)) = some true := by decide +kernel
  obtain ⟨record, written, gates⟩ := Option.map_eq_some_iff.mp reported
  have fits : record.Fits := ((record.yields record).mp (accepted plainConfig none gatesScript _
    record (by decide +kernel) (by decide +kernel) (Run.foldl _ _ _) written)).1
  obtain ⟨event, listed, stage⟩ := List.any_eq_true.mp gates
  have known := (fits.events event listed).2.1 .gates (by simpa using stage)
  exact absurd known (by decide)

end World

end AdCoder.BackgroundRuns
