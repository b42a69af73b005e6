import AdCoder.BackgroundRuns.Promises
import AdCoder.BackgroundRuns.WakeLaws

/-!
# Records that their reader accepts

What a manager does to its copy leaves every field of the copy acceptable to the
reader, if what comes from outside is acceptable and the counters stay safe
integers.
-/

namespace AdCoder.BackgroundRuns

open Foundation Orchestration ProjectOperations

/-! ## Sequences of events -/

theorem ordered_tail {n : Nat} {event : BackgroundRunEvent} {rest : List BackgroundRunEvent}
    (h : ordered n (event :: rest) = true) : ordered n rest = true := by
  cases rest with
  | nil => rfl
  | cons next rest =>
      simp only [ordered, Bool.and_eq_true] at h
      exact h.2

theorem ordered_drop {n : Nat} {events : List BackgroundRunEvent} (h : ordered n events = true)
    (k : Nat) : ordered n (events.drop k) = true := by
  induction k generalizing events with
  | zero => simpa using h
  | succ k ih =>
      cases events with
      | nil => rfl
      | cons event rest => exact ih (ordered_tail h)

/-- The next event keeps the order. -/
theorem ordered_append {n : Nat} {events : List BackgroundRunEvent} (h : ordered n events = true)
    {event : BackgroundRunEvent} (next : event.sequence = n) :
    ordered (n + 1) (events ++ [event]) = true := by
  induction events with
  | nil => simp [ordered, next]
  | cons first rest ih =>
      cases rest with
      | nil =>
          simp only [ordered, decide_eq_true_eq] at h
          simp only [List.cons_append, List.nil_append, ordered, Bool.and_eq_true,
            decide_eq_true_eq]
          omega
      | cons second rest =>
          simp only [ordered, Bool.and_eq_true, decide_eq_true_eq] at h
          have later := ih h.2
          simp only [List.cons_append, ordered, Bool.and_eq_true, decide_eq_true_eq] at later ⊢
          exact ⟨⟨by omega, h.1.2⟩, later⟩

/-! ## Windows -/

section Windows

variable {now : Nat} {entries : List WakeEntry}

theorem openWindow_fits (clock : now ≤ JsNumber.maxSafe) (kind : WakeKind) :
    (openWindow kind now).Fits :=
  ⟨clock, clock, ⟨Nat.le_refl 1, Nat.succ_le_of_lt (by decide)⟩, fun _ h => by cases h⟩

theorem landing_fits (clock : now ≤ JsNumber.maxSafe) (kind : WakeKind)
    (fits : ∀ w ∈ entries, w.Fits) (room : ∀ w ∈ entries, w.count + 1 ≤ JsNumber.maxSafe) :
    (landing kind now entries).Fits := by
  unfold landing
  split
  · rename_i w found
    obtain ⟨hw, -, -⟩ := lastOpen_spec found
    obtain ⟨firstAt, -, -, handledAt⟩ := fits w hw
    exact ⟨firstAt, clock, ⟨Nat.le_add_left 1 w.count, room w hw⟩, handledAt⟩
  · exact openWindow_fits clock kind

theorem landing_count {n : Nat} (kind : WakeKind) (pos : n + 1 ≤ JsNumber.maxSafe)
    (room : ∀ w ∈ entries, w.count + (n + 1) ≤ JsNumber.maxSafe) :
    (landing kind now entries).count + n ≤ JsNumber.maxSafe := by
  unfold landing
  split
  · rename_i w found
    have := room w (lastOpen_spec found).1
    show w.count + 1 + n ≤ JsNumber.maxSafe
    omega
  · show 1 + n ≤ JsNumber.maxSafe
    omega

theorem foldl_min_le {f : WakeEntry → Nat} (others : List WakeEntry) (start : Nat) :
    others.foldl (fun least v => min least (f v)) start ≤ start := by
  induction others generalizing start with
  | nil => exact Nat.le_refl start
  | cons v rest ih => exact Nat.le_trans (ih _) (Nat.min_le_left ..)

theorem foldl_laterAt_le {others : List WakeEntry} {start : Option Nat} {bound : Nat}
    (first : ∀ t, start = some t → t ≤ bound)
    (rest : ∀ v ∈ others, ∀ t, v.handledAt = some t → t ≤ bound) :
    ∀ t, others.foldl (fun most v => laterAt most v.handledAt) start = some t → t ≤ bound := by
  induction others generalizing start with
  | nil => exact first
  | cons v others ih =>
      refine ih ?_ fun u hu => rest u (List.mem_cons_of_mem v hu)
      have later := rest v List.mem_cons_self
      intro t h
      cases start with
      | none => exact later t h
      | some a =>
          cases handledAt : v.handledAt with
          | none =>
              simp only [laterAt, handledAt] at h
              exact first t h
          | some b =>
              simp only [laterAt, handledAt, Option.some.injEq] at h
              have ha := first a rfl
              have hb := later b handledAt
              omega

/-- The union of acceptable observations is acceptable. -/
theorem joinWindow_fits {first : WakeEntry} {others : List WakeEntry}
    (fits : ∀ w ∈ first :: others, w.Fits) : (joinWindow first others).Fits := by
  obtain ⟨firstAt, lastAt, count, handledAt⟩ := fits first List.mem_cons_self
  have rest (w : WakeEntry) (hw : w ∈ others) : w.Fits := fits w (List.mem_cons_of_mem first hw)
  have counted : first.count ≤ (joinWindow first others).count :=
    (foldl_max_le.mp (Nat.le_refl (joinWindow first others).count)).1
  refine ⟨Nat.le_trans (foldl_min_le others first.firstAt) firstAt, ?_, ⟨?_, ?_⟩, ?_⟩
  · exact foldl_max_le.mpr ⟨lastAt, fun w hw => (rest w hw).2.1⟩
  · exact Nat.le_trans count.1 counted
  · exact foldl_max_le.mpr ⟨count.2, fun w hw => (rest w hw).2.2.1.2⟩
  · exact foldl_laterAt_le handledAt fun w hw => (rest w hw).2.2.2

theorem mergeWindows_fits {a b : List WakeEntry} (left : ∀ w ∈ a, w.Fits)
    (right : ∀ w ∈ b, w.Fits) : ∀ w ∈ mergeWindows a b, w.Fits := by
  intro w hw
  obtain ⟨key, -, joined⟩ := List.mem_filterMap.mp hw
  unfold joinAt at joined
  split at joined
  · cases joined
  · rename_i first others found
    cases joined
    refine joinWindow_fits fun v hv => ?_
    rw [← found] at hv
    exact (List.mem_append.mp (List.mem_of_mem_filter hv)).elim (left v) (right v)

theorem handle_fits (clock : now ≤ JsNumber.maxSafe) (marks : Marks)
    (fits : ∀ w ∈ entries, w.Fits) : ∀ w ∈ marks.handle now entries, w.Fits := by
  intro w hw
  obtain ⟨v, hv, rfl⟩ := List.mem_map.mp hw
  obtain ⟨firstAt, lastAt, count, handledAt⟩ := fits v hv
  split
  · refine ⟨firstAt, lastAt, count, ?_⟩
    rintro _ ⟨⟩
    exact clock
  · exact ⟨firstAt, lastAt, count, handledAt⟩

end Windows

/-! ## Copies -/

section Copies

variable (config : BackgroundRunConfig)

/-- The copy as a record of its own. -/
def Entry.asRecord (e : Entry) : PersistedEntry where
  ownerId := config.ownerId
  runId := config.runId
  lifecycle := e.lifecycle
  events := e.events
  nextSequence := e.nextSequence
  metrics := e.metrics
  pause := e.pause
  lease := e.lease
  outcome := e.outcome
  wake := some e.wake
  process := e.process

/-- Every field of the copy is one that the reader accepts. -/
def Entry.Fits (e : Entry) : Prop := (e.asRecord config).Fits

/-- The counters of the copy stay safe integers over as many more events. -/
def Entry.Room (n : Nat) (e : Entry) : Prop :=
  e.nextSequence + n ≤ JsNumber.maxSafe ∧ ∀ w ∈ e.wake, w.count + n ≤ JsNumber.maxSafe

structure EventFields.Fits (fields : EventFields) : Prop where
  stage : ∀ stage, fields.stage = some stage → stage ∈ stagePhases
  pause : ∀ pause, fields.pause = some pause → PauseFits pause
  metrics : ∀ metrics, fields.metrics = some metrics → metrics.Fits

variable {config} {now : Nat} {e : Entry}

theorem Entry.Fits.windows (fits : e.Fits config) : ∀ w ∈ e.wake, w.Fits := fits.wake e.wake rfl

theorem Entry.Room.append {n : Nat} (room : e.Room (n + 1)) (lifecycle : BackgroundLifecycle)
    (fields : EventFields) :
    (e.append config now lifecycle fields).Room n := by
  obtain ⟨next, counts⟩ := room
  have pos : n + 1 ≤ JsNumber.maxSafe := Nat.le_trans (Nat.le_add_left ..) next
  constructor
  · show e.nextSequence + 1 + n ≤ JsNumber.maxSafe
    omega
  · intro w hw
    simp only [Entry.append, coalesceWake] at hw
    split at hw
    · have := counts w hw
      omega
    · rename_i kind _
      rcases (coalesceWindow_spec _ kind now e.wake).2 w hw with old | rfl
      · have := counts w old
        omega
      · exact landing_count kind pos counts

/-- An event that fits leaves a copy that fits. -/
theorem Entry.Fits.append (fits : e.Fits config) {n : Nat} (room : e.Room (n + 1))
    (clock : now ≤ JsNumber.maxSafe) (lifecycle : BackgroundLifecycle) {fields : EventFields}
    (known : fields.Fits) : (e.append config now lifecycle fields).Fits config := by
  obtain ⟨next, counts⟩ := room
  have pos : 1 ≤ e.nextSequence := fits.next.1
  have below : e.nextSequence + 1 ≤ JsNumber.maxSafe := by omega
  have kept (events : List BackgroundRunEvent) : ∃ k, retained config events = events.drop k := by
    unfold retained
    split
    · exact ⟨0, rfl⟩
    · exact ⟨_, rfl⟩
  obtain ⟨k, dropped⟩ := kept (e.events ++ [⟨e.nextSequence, config.runId, lifecycle, now,
    fields.stage, fields.pause, fields.errorCode, fields.metrics⟩])
  constructor
  · exact fits.owner
  · exact fits.run
  · intro event h
    simp only [Entry.append, Entry.asRecord, dropped] at h
    rcases List.mem_append.mp (List.mem_of_mem_drop h) with old | new
    · exact fits.events event old
    · obtain rfl := List.mem_singleton.mp new
      exact ⟨rfl, known.stage, ⟨pos, Nat.le_of_succ_le below⟩, clock, known.pause, known.metrics⟩
  · exact ⟨Nat.le_add_left .., below⟩
  · simp only [Entry.append, Entry.asRecord, dropped]
    exact ordered_drop (ordered_append fits.ordered rfl) k
  · exact fits.lease
  · exact fits.pause
  · exact fits.outcome
  · rintro wake ⟨⟩ w hw
    simp only [Entry.append, coalesceWake] at hw
    split at hw
    · exact fits.windows w hw
    · rename_i kind _
      rcases (coalesceWindow_spec _ kind now e.wake).2 w hw with old | rfl
      · exact fits.windows w old
      · refine landing_fits clock kind fits.windows fun v hv => ?_
        have := counts v hv
        omega
  · exact fits.process
  · exact fits.terminal
  · exact fits.metrics

/-! ### Works -/

variable (config)

/-- What a settled pipeline reports in an outcome is acceptable. -/
structure RunPipelineResult.Fits (result : RunPipelineResult) : Prop where
  rounds : result.rounds ≤ JsNumber.maxSafe
  verdict : result.lastVerdict ≠ some .decompositionRequired
  closeout : ∀ closeout, result.budgetCloseout = some closeout → closeout.Fits

/-- The metrics after one more step. -/
def RunMetrics.stepped (metrics : RunMetrics) (step : StepCost) : RunMetrics :=
  ⟨metrics.steps + 1, config.addCost metrics.totalCost step.cost⟩

/-- Every step of a segment names a phase of `PHASES` and leaves acceptable metrics. -/
def SegmentFits : RunMetrics → List StepCost → Prop
  | _, [] => True
  | metrics, step :: rest => step.phase ∈ stagePhases ∧ (metrics.stepped config step).Fits ∧
      SegmentFits (metrics.stepped config step) rest

/-- What a work takes from outside is acceptable. -/
def Work.Inputs (e : Entry) : Work → Prop
  | launch workerId => FitsString workerId
  | stage step => SegmentFits config e.metrics [step]
  | complete result => result.Fits ∧ RunMetrics.Fits ⟨result.perStep.length, result.totalCost⟩
  | pause reason metrics => PauseFits reason ∧ metrics.Fits
  | projectPause reason metrics segment =>
      (PauseFits reason ∧ metrics.Fits) ∧ SegmentFits config e.metrics segment
  | projectResult result => result.Fits ∧ SegmentFits config e.metrics result.perStep
  | _ => True

instance (result : RunPipelineResult) : Decidable result.Fits :=
  decidable_of_iff (result.rounds ≤ JsNumber.maxSafe ∧
      result.lastVerdict ≠ some .decompositionRequired ∧
      ∀ closeout, result.budgetCloseout = some closeout → closeout.Fits)
    ⟨fun h => ⟨h.1, h.2.1, h.2.2⟩, fun h => ⟨h.rounds, h.verdict, h.closeout⟩⟩

instance SegmentFits.decide : (metrics : RunMetrics) → (segment : List StepCost) →
    Decidable (SegmentFits config metrics segment)
  | _, [] => .isTrue trivial
  | metrics, step :: rest =>
      have := SegmentFits.decide (metrics.stepped config step) rest
      inferInstanceAs (Decidable (_ ∧ _ ∧ _))

instance (e : Entry) : (work : Work) → Decidable (work.Inputs config e)
  | .launch workerId => inferInstanceAs (Decidable (FitsString workerId))
  | .stage step => inferInstanceAs (Decidable (SegmentFits config e.metrics [step]))
  | .complete result => inferInstanceAs (Decidable (result.Fits ∧ RunMetrics.Fits _))
  | .pause reason metrics => inferInstanceAs (Decidable (PauseFits reason ∧ metrics.Fits))
  | .projectPause reason metrics segment => inferInstanceAs
      (Decidable ((PauseFits reason ∧ metrics.Fits) ∧ SegmentFits config e.metrics segment))
  | .projectResult result =>
      inferInstanceAs (Decidable (result.Fits ∧ SegmentFits config e.metrics result.perStep))
  | .create _ | .begin | .attention | .fail | .settle | .heartbeat | .cancel | .timeout
  | .abandon | .failLaunch | .persist => .isTrue trivial

instance (n : Nat) (e : Entry) : Decidable (e.Room n) := inferInstanceAs (Decidable (_ ∧ _))

variable {config}

theorem EventFields.fits_empty : EventFields.Fits {} := by
  constructor <;> rintro _ ⟨⟩

theorem EventFields.fits_metrics {metrics : RunMetrics} (fits : metrics.Fits)
    (errorCode : Option RunErrorCode) :
    EventFields.Fits { errorCode := errorCode, metrics := some metrics } := by
  constructor
  · rintro _ ⟨⟩
  · rintro _ ⟨⟩
  · rintro _ ⟨⟩
    exact fits

theorem pauseFields_fits {reason : Pause} (known : PauseFits reason) {metrics : RunMetrics}
    (fits : metrics.Fits) : (pauseFields reason metrics).Fits := by
  constructor
  · intro stage h
    by_cases listed : reason.phase ∈ stagePhases
    · simp only [pauseFields, listed, if_true, Option.some.injEq] at h
      exact h ▸ listed
    · simp [pauseFields, listed] at h
  · rintro _ ⟨⟩
    exact known
  · rintro _ ⟨⟩
    exact fits

/-- A copy that is not terminal has no outcome. -/
theorem Entry.Fits.outcome_none (fits : e.Fits config) (running : e.lifecycle.isTerminal = false) :
    e.outcome = none := by
  have terminal : e.lifecycle.isTerminal = e.outcome.isSome := fits.terminal
  rw [running] at terminal
  exact Option.isSome_eq_false_iff.mp terminal.symm |> Option.isNone_iff_eq_none.mp

/-- The base of an outcome of the copy, with what the end of the run adds to it. -/
theorem Entry.Fits.terminalStatus (fits : e.Fits config) {lifecycle : BackgroundLifecycle}
    (terminal : lifecycle ∈ BackgroundLifecycle.terminal) (recovery : Option Recovery)
    {detail : Option String}
    (known : ∀ text, detail = some text → 0 < length text ∧ length text ≤ 1024) :
    BackgroundTerminalOutcome.Fits config.runId { e.terminalStatus config lifecycle with
      recovery := recovery, recoveryDetail := detail } :=
  ⟨rfl, terminal, fits.metrics, fits.pause, known, by rintro _ ⟨⟩, by rintro _ ⟨⟩, by rintro _ ⟨⟩⟩

/-- The run ends with an outcome. -/
theorem Entry.Fits.ended (fits : e.Fits config) {lifecycle : BackgroundLifecycle}
    {outcome : BackgroundTerminalOutcome} (known : outcome.Fits config.runId)
    (same : outcome.lifecycle = lifecycle) :
    Entry.Fits config { e with lifecycle := lifecycle, outcome := some outcome } := by
  have terminal : lifecycle.isTerminal = true := by
    rw [← same]
    exact List.contains_iff_mem.mpr known.2.1
  refine { fits with outcome := ?_, terminal := terminal }
  rintro _ ⟨⟩
  exact ⟨known, same⟩

/-- The run goes on, or goes on again. -/
theorem Entry.Fits.goesOn (fits : e.Fits config) {lifecycle : BackgroundLifecycle}
    (running : lifecycle.isTerminal = false) :
    Entry.Fits config { e with lifecycle := lifecycle, outcome := none } := by
  refine { fits with outcome := ?_, terminal := running }
  rintro _ ⟨⟩

theorem Entry.Fits.stillOn (fits : e.Fits config) (going : e.outcome = none)
    {lifecycle : BackgroundLifecycle} (running : lifecycle.isTerminal = false) :
    Entry.Fits config { e with lifecycle := lifecycle } := by
  have reopened := fits.goesOn running
  rwa [← going] at reopened

theorem noDetail (text : String) (h : (none : Option String) = some text) :
    0 < length text ∧ length text ≤ 1024 := by
  cases h

theorem resumePipelineDetail_fits (text : String) (h : some resumePipelineDetail = some text) :
    0 < length text ∧ length text ≤ 1024 := by
  cases h
  have size : length resumePipelineDetail = 90 + 91 + 46 :=
    length_append_literal (length_append_literal (length_literal rfl) rfl) rfl
  omega

theorem claimDeadlineDetail_fits (text : String) (h : some claimDeadlineDetail = some text) :
    0 < length text ∧ length text ≤ 1024 := by
  cases h
  have size : length claimDeadlineDetail = 90 + 93 + 63 :=
    length_append_literal (length_append_literal (length_literal rfl) rfl) rfl
  omega

theorem verdictOf_fits {verdict : Option VerdictStatus}
    (known : verdict ≠ some .decompositionRequired) : verdictOf verdict ∈ outcomeVerdicts := by
  rcases verdict with _ | ⟨_ | _ | _⟩
  · decide
  · decide
  · decide
  · exact absurd rfl known

theorem Entry.Fits.completedOutcome (fits : e.Fits config) {result : RunPipelineResult}
    (known : result.Fits) : (e.completedOutcome config result).Fits config.runId := by
  have terminal : BackgroundLifecycle.completed ∈ BackgroundLifecycle.terminal := by decide
  refine ⟨rfl, terminal, fits.metrics, fits.pause, by rintro _ ⟨⟩, ?_, ?_, known.closeout⟩
  · rintro _ ⟨⟩
    exact known.rounds
  · rintro _ ⟨⟩
    exact verdictOf_fits known.verdict

/-- One step of a foreground resume, or of a worker. -/
theorem Entry.Fits.onStage (fits : e.Fits config) {n : Nat} (room : e.Room (n + 1))
    (clock : now ≤ JsNumber.maxSafe) {step : StepCost} (phase : step.phase ∈ stagePhases)
    (metrics : (e.metrics.stepped config step).Fits) :
    (e.onStage config now step).Fits config ∧ (e.onStage config now step).Room n := by
  have added : Entry.Fits config (e.addStep config step) := { fits with metrics := metrics }
  have room' : (e.addStep config step).Room (n + 1) := room
  refine ⟨added.append room' clock _ ⟨?_, by rintro _ ⟨⟩, ?_⟩, room'.append ..⟩
  · rintro _ ⟨⟩
    exact phase
  · rintro _ ⟨⟩
    exact metrics

/-- The steps of a foreground resume, one after the other. -/
theorem Entry.Fits.foldSteps (clock : now ≤ JsNumber.maxSafe) {n : Nat}
    (segment : List StepCost) {e : Entry} (fits : e.Fits config) (going : e.outcome = none)
    (room : e.Room (n + segment.length)) (known : SegmentFits config e.metrics segment) :
    (segment.foldl (fun e step =>
        Entry.onStage config now step { e with lifecycle := .stageChanged }) e).Fits config ∧
      (segment.foldl (fun e step =>
        Entry.onStage config now step { e with lifecycle := .stageChanged }) e).outcome = none ∧
      (segment.foldl (fun e step =>
        Entry.onStage config now step { e with lifecycle := .stageChanged }) e).Room n := by
  induction segment generalizing e with
  | nil => exact ⟨fits, going, room⟩
  | cons step rest ih =>
      obtain ⟨phase, metrics, later⟩ := known
      have reopened : Entry.Fits config { e with lifecycle := .stageChanged } := fits.stillOn going rfl
      have room' : Entry.Room (n + rest.length + 1) { e with lifecycle := .stageChanged } := room
      obtain ⟨fits', room''⟩ := reopened.onStage room' clock phase metrics
      exact ih fits' going room'' later

theorem Entry.Fits.projectSegment (fits : e.Fits config) {segment : List StepCost} {n : Nat}
    (room : e.Room (n + segment.length + 1)) (clock : now ≤ JsNumber.maxSafe)
    (known : SegmentFits config e.metrics segment) :
    (Entry.projectSegment config now segment { e with outcome := none }).Fits config ∧
      (Entry.projectSegment config now segment { e with outcome := none }).outcome = none ∧
      (Entry.projectSegment config now segment { e with outcome := none }).Room n := by
  have started : Entry.Fits config { e with lifecycle := .started, outcome := none } :=
    fits.goesOn rfl
  have room' : Entry.Room (n + segment.length + 1)
      { e with lifecycle := .started, outcome := none } := room
  exact Fits.foldSteps clock segment (started.append room' clock _ EventFields.fits_empty) rfl
    (room'.append ..) known

/-- A pause that is projected onto a run that goes on. -/
theorem Entry.Fits.projectedPause (fits : Entry.Fits config { e with lifecycle := .paused })
    (room : e.Room 1) (clock : now ≤ JsNumber.maxSafe) {reason : Pause} (known : PauseFits reason)
    {metrics : RunMetrics} (counted : metrics.Fits) :
    Entry.Fits config (Entry.append config now .paused (pauseFields reason metrics)
      { e with lifecycle := .paused, metrics := metrics, pause := some reason }) := by
  have stopped : Entry.Fits config { e with
      lifecycle := .paused, metrics := metrics, pause := some reason } :=
    { fits with metrics := counted, pause := (by rintro _ ⟨⟩; exact known) }
  exact stopped.append room clock _ (pauseFields_fits known counted)

/-- A work with acceptable inputs leaves an acceptable copy. -/
theorem Work.run_fits {work : Work} (fits : e.Fits config) (suits : work.Suits e)
    (clock : now ≤ JsNumber.maxSafe) (room : e.Room work.appends.length)
    (inputs : work.Inputs config e) : (work.run config now e).Fits config := by
  have running (opens : work.opens = true) : e.outcome = none :=
    fits.outcome_none (suits.opened opens)
  cases work with
  | create workerId => exact fits.append room clock _ EventFields.fits_empty
  | launch workerId =>
      refine { fits with pause := (by rintro _ ⟨⟩), lease := ?_ }
      intro lease h
      cases held : e.lease with
      | none =>
          obtain rfl : ⟨workerId, now⟩ = lease := by
            simpa [Work.run, Entry.launch, Entry.asRecord, held] using h
          exact ⟨inputs, clock⟩
      | some own =>
          obtain rfl : own = lease := by
            simpa [Work.run, Entry.launch, Entry.asRecord, held] using h
          exact fits.lease own held
  | begin =>
      have started : Entry.Fits config { e with lifecycle := .started } :=
        fits.stillOn (running rfl) rfl
      exact started.append room clock _ EventFields.fits_empty
  | stage step => exact (fits.onStage room clock inputs.1 inputs.2.1).1
  | complete result =>
      have counted : Entry.Fits config { e with
          metrics := ⟨result.perStep.length, result.totalCost⟩ } :=
        { fits with metrics := inputs.2 }
      have ended := counted.ended (counted.completedOutcome inputs.1) rfl
      exact ended.append room clock _ (EventFields.fits_metrics inputs.2 none)
  | pause reason metrics =>
      have paused : Entry.Fits config { e with lifecycle := .paused } :=
        fits.stillOn (running rfl) rfl
      exact paused.projectedPause room clock inputs.1 inputs.2
  | attention =>
      have waiting : Entry.Fits config { e with lifecycle := .operatorAttention } :=
        fits.stillOn (running rfl) rfl
      exact waiting.append room clock _ (EventFields.fits_metrics fits.metrics _)
  | fail =>
      have ended := fits.ended (fits.terminalStatus (show BackgroundLifecycle.failed ∈
        BackgroundLifecycle.terminal by decide) (some .inspectEvents) noDetail) rfl
      exact ended.append room clock _ (EventFields.fits_metrics fits.metrics _)
  | settle => exact { fits with lease := (by rintro _ ⟨⟩) }
  | heartbeat =>
      refine { fits with lease := ?_ }
      rintro lease h
      obtain ⟨own, held, rfl⟩ := Option.map_eq_some_iff.mp h
      exact ⟨(fits.lease own held).1, clock⟩
  | cancel =>
      have ended := fits.ended (fits.terminalStatus (show BackgroundLifecycle.cancelled ∈
        BackgroundLifecycle.terminal by decide) (some .none) noDetail) rfl
      exact ended.append room clock _ (EventFields.fits_metrics fits.metrics _)
  | timeout =>
      have ended := fits.ended (fits.terminalStatus (show BackgroundLifecycle.timedOut ∈
        BackgroundLifecycle.terminal by decide) (some .resumePipeline) resumePipelineDetail_fits) rfl
      exact ended.append room clock _ (EventFields.fits_metrics fits.metrics _)
  | abandon =>
      have failed : BackgroundLifecycle.failed ∈ BackgroundLifecycle.terminal := by decide
      have known : BackgroundTerminalOutcome.Fits config.runId ⟨config.runId, .failed, e.metrics,
          none, some .resumePipeline, some resumePipelineDetail, none, none, none, none⟩ :=
        ⟨rfl, failed, fits.metrics, by rintro _ ⟨⟩, resumePipelineDetail_fits, by rintro _ ⟨⟩,
          by rintro _ ⟨⟩, by rintro _ ⟨⟩⟩
      have ended := fits.ended known rfl
      exact ended.append room clock _ (EventFields.fits_metrics fits.metrics _)
  | failLaunch =>
      have ended := fits.ended (fits.terminalStatus (show BackgroundLifecycle.failed ∈
        BackgroundLifecycle.terminal by decide) (some .inspectEvents) noDetail) rfl
      exact ended.append room clock _ (EventFields.fits_metrics fits.metrics _)
  | persist => exact fits
  | projectPause reason metrics segment =>
      obtain ⟨⟨known, counted⟩, steps⟩ := inputs
      by_cases empty : segment = []
      · subst empty
        have paused : Entry.Fits config { e with outcome := none, lifecycle := .paused } :=
          fits.goesOn rfl
        exact Entry.Fits.projectedPause (e := { e with outcome := none }) paused room clock known counted
      · have enough : e.Room (1 + segment.length + 1) := by
          simpa [Work.appends, empty, Nat.add_comm, Nat.add_assoc] using room
        obtain ⟨fits', going, room'⟩ := fits.projectSegment enough clock steps
        have paused := (fits'.stillOn going rfl).projectedPause room' clock known counted
        simpa [Work.run, Entry.projectPause, empty] using paused
  | projectResult result =>
      have unpaused : Entry.Fits config { e with pause := none } :=
        { fits with pause := (by rintro _ ⟨⟩) }
      have enough : Entry.Room (1 + result.perStep.length + 1) { e with pause := none } := by
        simpa [Work.appends, Entry.Room, Nat.add_comm, Nat.add_assoc] using room
      obtain ⟨fits', -, room'⟩ := unpaused.projectSegment enough clock inputs.2
      have ended := fits'.ended (fits'.completedOutcome inputs.1) rfl
      exact ended.append room' clock _ (EventFields.fits_metrics fits'.metrics none)

end Copies

end AdCoder.BackgroundRuns
