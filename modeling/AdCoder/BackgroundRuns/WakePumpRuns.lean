import AdCoder.BackgroundRuns.WakePump

/-!
# Every order of notices, turns and wakes

Between two events at most one activation waits for a turn, and the flag says
whether one does; a callback is queued exactly if the other flag is set.
-/

namespace AdCoder.BackgroundRuns

open Foundation
open WakePump (markRuns)

variable {config : WakePumpConfig} {pump : WakePump} {batch : List PendingWake}
  {answers : Answers} {runs later : List OwnedRun} {step : Nat}

/-! ## What marking changes -/

/-- A window that is as it was, or was unhandled, is one of the batch and is handled now. -/
def MarkedBy (batch : List PendingWake) (runId : String) (w w' : WakeEntry) : Prop :=
  w' = w ∨ (w.handled = false ∧
    (∃ wake ∈ batch, wake.runId = runId ∧ wake.window.kind = w.kind ∧
      wake.window.firstAt = w.firstAt ∧ wake.window.lastAt = w.lastAt ∧
      wake.window.count = w.count) ∧
    ∃ now, w' = { w with handled := true, handledAt := some now })

/-- Two states of the runs that differ only in windows of the batch. -/
def RunsMarkedBy (batch : List PendingWake) : List OwnedRun → List OwnedRun → Prop :=
  List.Forall₂ fun run run' =>
    ∃ wake, run' = { run with wake } ∧ List.Forall₂ (MarkedBy batch run.runId) run.wake wake

theorem MarkedBy.trans {runId : String} {u v w : WakeEntry} (first : MarkedBy batch runId u v)
    (next : MarkedBy batch runId v w) : MarkedBy batch runId u w := by
  rcases next with rfl | ⟨unhandled, found, now, rfl⟩
  · exact first
  · rcases first with rfl | ⟨-, -, now', rfl⟩
    · exact .inr ⟨unhandled, found, now, rfl⟩
    · cases unhandled

theorem forall₂_refl {α : Type*} {R : α → α → Prop} (h : ∀ a, R a a) (xs : List α) :
    List.Forall₂ R xs xs := by
  induction xs with
  | nil => exact .nil
  | cons x xs ih => exact .cons (h x) ih

theorem forall₂_trans {α : Type*} {R S T : α → α → Prop} (h : ∀ a b c, R a b → S b c → T a c)
    {xs ys zs : List α} (first : List.Forall₂ R xs ys) (next : List.Forall₂ S ys zs) :
    List.Forall₂ T xs zs := by
  induction first generalizing zs with
  | nil =>
      cases next
      exact .nil
  | cons head _ ih =>
      cases next with
      | cons head' tail' => exact .cons (h _ _ _ head head') (ih tail')

theorem RunsMarkedBy.refl (batch : List PendingWake) (runs : List OwnedRun) :
    RunsMarkedBy batch runs runs :=
  forall₂_refl (fun run => ⟨run.wake, rfl, forall₂_refl (fun _ => .inl rfl) run.wake⟩) runs

theorem RunsMarkedBy.trans {between : List OwnedRun} (first : RunsMarkedBy batch runs between)
    (next : RunsMarkedBy batch between later) : RunsMarkedBy batch runs later := by
  refine forall₂_trans ?_ first next
  rintro run _ _ ⟨wake, rfl, marked⟩ ⟨wake', rfl, marked'⟩
  have joined : ∀ u v w, MarkedBy batch run.runId u v → MarkedBy batch run.runId v w →
      MarkedBy batch run.runId u w := fun _ _ _ => MarkedBy.trans
  exact ⟨wake', rfl, forall₂_trans joined marked marked'⟩

theorem handle_marked {runId : String} {wakes : List PendingWake} (now : Nat)
    (part : ∀ wake ∈ wakes, wake ∈ batch ∧ wake.runId = runId) (windows : List WakeEntry) :
    List.Forall₂ (MarkedBy batch runId) windows
      ((Marks.exact (wakes.map (·.window))).handle now windows) := by
  induction windows with
  | nil => exact .nil
  | cons w rest ih =>
      refine .cons ?_ ih
      beta_reduce
      by_cases covered : (Marks.exact (wakes.map (·.window))).covers w && !w.handled
      · rw [if_pos covered]
        obtain ⟨found, unhandled⟩ := Bool.and_eq_true_iff.mp covered
        simp only [Marks.covers, List.any_map, List.any_eq_true, Function.comp_apply,
          Bool.and_eq_true, beq_iff_eq] at found
        obtain ⟨wake, member, ⟨⟨kind, first⟩, last⟩, count⟩ := found
        obtain ⟨inBatch, same⟩ := part wake member
        exact .inr ⟨by simpa using unhandled,
          ⟨wake, inBatch, same, kind, first, last, count⟩, now, rfl⟩
      · rw [if_neg covered]
        exact .inl rfl

theorem markHandled_marked {runId : String} {wakes : List PendingWake} (now : Nat)
    (part : ∀ wake ∈ wakes, wake ∈ batch ∧ wake.runId = runId) (runs : List OwnedRun) :
    RunsMarkedBy batch runs (markHandled now runId wakes runs) := by
  induction runs with
  | nil => exact .nil
  | cons run rest ih =>
      refine .cons ?_ ih
      beta_reduce
      by_cases same : run.runId = runId
      · rw [if_pos same]
        subst same
        exact ⟨_, rfl, handle_marked now part run.wake⟩
      · rw [if_neg same]
        exact ⟨run.wake, rfl, forall₂_refl (fun _ => .inl rfl) run.wake⟩

theorem markRuns_marked {groups : List (String × List PendingWake)}
    (part : ∀ group ∈ groups, ∀ wake ∈ group.2, wake ∈ batch ∧ wake.runId = group.1)
    (runs : List OwnedRun) : RunsMarkedBy batch runs (markRuns answers groups runs).1 := by
  induction groups generalizing runs with
  | nil => exact .refl batch runs
  | cons group rest ih =>
      obtain ⟨runId, wakes⟩ := group
      have first := part (runId, wakes) (by simp)
      simp only [markRuns]
      split
      · next now _ =>
          exact (markHandled_marked now first runs).trans
            (ih (fun group member => part group (by simp [member])) _)
      · exact .refl batch runs
      · next now _ => exact markHandled_marked now first runs

theorem byRun_part : ∀ group ∈ byRun batch, ∀ wake ∈ group.2,
    wake ∈ batch ∧ wake.runId = group.1 := by
  intro group member wake inGroup
  obtain ⟨runId, -, rfl⟩ := List.mem_map.mp member
  simpa using List.mem_filter.mp inGroup

/-- Every window that is handled after the marks and was not before is one of the batch. -/
theorem markRuns_byRun (answers : Answers) (batch : List PendingWake) (runs : List OwnedRun) :
    RunsMarkedBy batch runs (markRuns answers (byRun batch) runs).1 :=
  markRuns_marked byRun_part runs

/-- The marks of a batch succeed if none throws. -/
theorem markRuns_succeeds {groups : List (String × List PendingWake)}
    (all : ∀ group ∈ groups, ∃ now, answers.marks group.1 = .marked now) (runs : List OwnedRun) :
    (markRuns answers groups runs).2 = true := by
  induction groups generalizing runs with
  | nil => rfl
  | cons group rest ih =>
      obtain ⟨runId, wakes⟩ := group
      obtain ⟨now, marked⟩ := all (runId, wakes) (by simp)
      simp only [markRuns, marked]
      exact ih (fun group member => all group (by simp [member])) _

/-! ## The flags -/

/-- What holds of the pump between two events. -/
structure WakePump.Sound (config : WakePumpConfig) (pump : WakePump) : Prop where
  flight : pump.drains.length = if pump.inFlight then 1 else 0
  queued : pump.microtasks = if pump.scheduled then 1 else 0
  inputs : ∀ drain ∈ pump.drains, ∃ prompt,
    buildWakeTurnPrompt config.host drain.batch = some prompt ∧ (drain.step, prompt) ∈ pump.turns

namespace WakePump

theorem schedule_eq (pump : WakePump) : ∃ scheduled microtasks,
    pump.schedule = { pump with scheduled, microtasks } := by
  unfold schedule
  split
  · exact ⟨_, _, rfl⟩
  · exact ⟨_, _, rfl⟩

theorem resolveIdle_eq (pump : WakePump) : ∃ idleResolver idle,
    pump.resolveIdle = { pump with idleResolver, idle } := by
  unfold resolveIdle
  split
  · exact ⟨_, _, rfl⟩
  · exact ⟨_, _, rfl⟩

/-- An idle pump that schedules has a callback queued. -/
theorem schedule_queues (queued : pump.microtasks = if pump.scheduled then 1 else 0)
    (idle : pump.inFlight = false) :
    pump.schedule.scheduled = true ∧ pump.schedule.microtasks = 1 := by
  cases scheduled : pump.scheduled with
  | true => simp [schedule, scheduled, queued]
  | false => simp [schedule, scheduled, idle, queued]

theorem Sound.schedule (h : pump.Sound config) : pump.schedule.Sound config := by
  have queued : pump.schedule.microtasks = if pump.schedule.scheduled then 1 else 0 := by
    cases idle : pump.inFlight with
    | true => simpa [WakePump.schedule, idle] using h.queued
    | false =>
        have queues := schedule_queues h.queued idle
        rw [queues.1, queues.2, if_pos rfl]
  obtain ⟨scheduled, microtasks, same⟩ := pump.schedule_eq
  rw [same] at queued ⊢
  exact ⟨h.flight, queued, h.inputs⟩

theorem Sound.resolveIdle (h : pump.Sound config) : pump.resolveIdle.Sound config := by
  obtain ⟨idleResolver, idle, same⟩ := pump.resolveIdle_eq
  rw [same]
  exact ⟨h.flight, h.queued, h.inputs⟩

theorem Sound.startupScan (h : pump.Sound config) : pump.startupScan.Sound config := by
  have scheduled := h.schedule
  unfold WakePump.startupScan
  simp only
  split
  · exact ⟨scheduled.flight, scheduled.queued, scheduled.inputs⟩
  · exact ⟨scheduled.flight, scheduled.queued, scheduled.inputs⟩

/-- The end of the only activation. -/
theorem sound_finish (alone : pump.drains = [])
    (queued : pump.microtasks = if pump.scheduled then 1 else 0) (remaining : Bool) :
    (pump.finish remaining).Sound config := by
  have landed : WakePump.Sound config { pump with inFlight := false } :=
    ⟨by simp [alone], queued, by simp [alone]⟩
  cases remaining with
  | true => exact landed.schedule
  | false => exact landed.resolveIdle

theorem Sound.drain (lane : Lane) (h : pump.Sound config) :
    (pump.drain config lane).Sound config := by
  unfold WakePump.drain
  split
  · exact h
  · next idle =>
      have alone : pump.drains = [] := by
        have flight := h.flight
        rw [if_neg idle] at flight
        exact List.eq_nil_of_length_eq_zero flight
      simp only
      generalize (if lane.unreadable then [] else listPending config pump.runs) = pending
      split
      · apply sound_finish
        · exact alone
        · exact h.queued
      · split
        · apply sound_finish
          · exact alone
          · exact h.queued
        · next prompt built =>
            refine ⟨by simp [alone], h.queued, ?_⟩
            intro drain member
            rw [alone] at member
            obtain rfl := List.mem_singleton.mp member
            exact ⟨prompt, built, List.mem_append_right _ (List.mem_singleton.mpr rfl)⟩

theorem Sound.callback (lane : Lane) (h : pump.Sound config) :
    (pump.callback config lane).Sound config := by
  unfold WakePump.callback
  split
  · exact h
  · next some' =>
      have one : pump.microtasks = 1 := by
        have queued := h.queued
        split at queued
        · exact queued
        · exact absurd queued some'
      have taken : WakePump.Sound config
          { pump with scheduled := false, microtasks := pump.microtasks - 1 } :=
        ⟨h.flight, by simp [one], h.inputs⟩
      simp only
      split
      · exact taken.resolveIdle
      · exact taken.drain lane

theorem afterTurn_sound {outcome : TurnOutcome} (alone : pump.drains = [])
    (queued : pump.microtasks = if pump.scheduled then 1 else 0) :
    (pump.afterTurn config batch outcome).Sound config := by
  unfold afterTurn
  split
  · exact sound_finish alone queued false
  · simp only
    split
    · apply sound_finish
      · exact alone
      · exact queued
    · apply sound_finish
      · exact alone
      · exact queued

/-- The only activation that waits, if its step is settled. -/
theorem Sound.single (h : pump.Sound config) {drain : Drain} (member : drain ∈ pump.drains) :
    pump.drains = [drain] := by
  have flight := h.flight
  cases drains : pump.drains with
  | nil => simp [drains] at member
  | cons first rest =>
      rw [drains] at flight member
      have last : rest = [] := by
        split at flight
        · simpa using flight
        · simp at flight
      subst last
      rw [List.mem_singleton.mp member]

theorem Sound.find (h : pump.Sound config) {drain : Drain} (member : drain ∈ pump.drains) :
    pump.drains.find? (·.step = drain.step) = some drain ∧
      pump.drains.filter (·.step ≠ drain.step) = [] := by
  rw [h.single member]
  simp

theorem Sound.settle (outcome : TurnOutcome) (h : pump.Sound config) :
    (pump.settle config step outcome).Sound config := by
  unfold WakePump.settle
  split
  · exact h
  · next drain found =>
      have member := List.mem_of_find?_eq_some found
      have same : drain.step = step := by simpa using List.find?_some found
      subst same
      exact afterTurn_sound (h.find member).2 h.queued

theorem Sound.apply (event : PumpEvent) (h : pump.Sound config) :
    (pump.apply config event).Sound config := by
  cases event with
  | notifyChange => exact h.schedule
  | onTurnSettled => exact h.schedule
  | startupScan => exact h.startupScan
  | microtask lane => exact h.callback lane
  | settle step outcome => exact h.settle outcome
  | environment runs => exact ⟨h.flight, h.queued, h.inputs⟩

theorem sound_run (config : WakePumpConfig) (runs : List OwnedRun) (events : List PumpEvent) :
    (run config runs events).Sound config := by
  suffices ∀ pump : WakePump, pump.Sound config →
      (events.foldl (WakePump.apply config) pump).Sound config from
    this (start runs) ⟨rfl, rfl, by simp [start]⟩
  induction events with
  | nil => exact fun _ h => h
  | cons event rest ih => exact fun pump h => ih (pump.apply config event) (h.apply event)

/-! ## What each event does -/

theorem schedule_runs : pump.schedule.runs = pump.runs := by
  obtain ⟨_, _, same⟩ := pump.schedule_eq
  rw [same]

theorem schedule_turns : pump.schedule.turns = pump.turns := by
  obtain ⟨_, _, same⟩ := pump.schedule_eq
  rw [same]

theorem resolveIdle_runs : pump.resolveIdle.runs = pump.runs := by
  obtain ⟨_, _, same⟩ := pump.resolveIdle_eq
  rw [same]

theorem resolveIdle_turns : pump.resolveIdle.turns = pump.turns := by
  obtain ⟨_, _, same⟩ := pump.resolveIdle_eq
  rw [same]

theorem finish_runs (remaining : Bool) : (pump.finish remaining).runs = pump.runs := by
  cases remaining with
  | true => exact schedule_runs
  | false => exact resolveIdle_runs

theorem finish_turns (remaining : Bool) : (pump.finish remaining).turns = pump.turns := by
  cases remaining with
  | true => exact schedule_turns
  | false => exact resolveIdle_turns

theorem startupScan_runs : pump.startupScan.runs = pump.runs := by
  unfold startupScan
  simp only
  split
  · exact schedule_runs
  · exact schedule_runs

theorem startupScan_turns : pump.startupScan.turns = pump.turns := by
  unfold startupScan
  simp only
  split
  · exact schedule_turns
  · exact schedule_turns

theorem drain_runs (lane : Lane) : (pump.drain config lane).runs = pump.runs := by
  unfold drain
  split
  · rfl
  · simp only
    generalize (if lane.unreadable then [] else listPending config pump.runs) = pending
    split
    · exact finish_runs false
    · split
      · exact finish_runs false
      · rfl

/-- A turn is called for by an idle pump only. -/
theorem Sound.drain_turns (lane : Lane) (h : pump.Sound config) :
    (pump.drain config lane).turns = pump.turns ∨
      (pump.drains = [] ∧ ∃ call, (pump.drain config lane).turns = pump.turns ++ [call]) := by
  unfold WakePump.drain
  split
  · exact .inl rfl
  · next idle =>
      have flight := h.flight
      rw [if_neg idle] at flight
      simp only
      generalize (if lane.unreadable then [] else listPending config pump.runs) = pending
      split
      · exact .inl (finish_turns false)
      · split
        · exact .inl (finish_turns false)
        · exact .inr ⟨List.eq_nil_of_length_eq_zero flight, _, rfl⟩

theorem callback_runs (lane : Lane) : (pump.callback config lane).runs = pump.runs := by
  unfold callback
  split
  · rfl
  · simp only
    split
    · exact resolveIdle_runs
    · exact drain_runs lane

theorem Sound.callback_turns (lane : Lane) (h : pump.Sound config) :
    (pump.callback config lane).turns = pump.turns ∨
      (pump.drains = [] ∧ ∃ call, (pump.callback config lane).turns = pump.turns ++ [call]) := by
  unfold WakePump.callback
  split
  · exact .inl rfl
  · next some' =>
      have one : pump.microtasks = 1 := by
        have queued := h.queued
        split at queued
        · exact queued
        · exact absurd queued some'
      have taken : WakePump.Sound config
          { pump with scheduled := false, microtasks := pump.microtasks - 1 } :=
        ⟨h.flight, by simp [one], h.inputs⟩
      simp only
      split
      · exact .inl resolveIdle_turns
      · exact taken.drain_turns lane

theorem afterTurn_turns {outcome : TurnOutcome} :
    (pump.afterTurn config batch outcome).turns = pump.turns := by
  unfold afterTurn
  split
  · exact finish_turns false
  · simp only
    split
    · exact finish_turns _
    · exact finish_turns false

theorem afterTurn_rejected_runs :
    (pump.afterTurn config batch .rejected).runs = pump.runs := finish_runs false

theorem afterTurn_resolved_runs :
    (pump.afterTurn config batch (.resolved answers)).runs =
      (markRuns answers (byRun batch) pump.runs).1 := by
  simp only [afterTurn]
  split
  · exact finish_runs _
  · exact finish_runs false

/-- A drain that succeeds schedules another if a window outside its batch is unhandled. -/
theorem afterTurn_schedules (queued : pump.microtasks = if pump.scheduled then 1 else 0)
    (marked : ∀ wake ∈ batch, ∃ now, answers.marks wake.runId = .marked now)
    (readable : answers.unreadable = false)
    (left : ∃ current ∈ listPending config (pump.afterTurn config batch (.resolved answers)).runs,
      ∀ drained ∈ batch, sameWindow current drained = false) :
    (pump.afterTurn config batch (.resolved answers)).scheduled = true ∧
      (pump.afterTurn config batch (.resolved answers)).microtasks = 1 := by
  have succeeds : (markRuns answers (byRun batch) pump.runs).2 = true := by
    apply markRuns_succeeds
    intro group member
    obtain ⟨runId, named, rfl⟩ := List.mem_map.mp member
    obtain ⟨wake, inBatch, rfl⟩ := List.mem_map.mp (List.mem_eraseDups.mp named)
    exact marked wake inBatch
  rw [afterTurn_resolved_runs] at left
  obtain ⟨current, listed, outside⟩ := left
  have remaining : ((listPending config (markRuns answers (byRun batch) pump.runs).1).any
      fun current => !batch.any fun drained => sameWindow current drained) = true := by
    apply List.any_eq_true.mpr
    refine ⟨current, listed, ?_⟩
    rw [Bool.not_eq_true', List.any_eq_false]
    intro drained member same
    rw [outside drained member] at same
    cases same
  simp only [afterTurn, succeeds, readable, Bool.not_false, Bool.and_self, if_true, remaining]
  exact schedule_queues queued rfl

end WakePump

/-! ## The law of the pump -/

/-- What one event does to a pump. -/
structure PumpLaw (config : WakePumpConfig) (pump : WakePump) (event : PumpEvent) : Prop where
  /-- At most one turn is in flight. -/
  single : (pump.apply config event).drains.length ≤ 1
  /-- A turn is called for only while none is in flight. -/
  calls : (pump.apply config event).turns = pump.turns ∨
    (pump.drains = [] ∧ ∃ call, (pump.apply config event).turns = pump.turns ++ [call])
  /-- The pump marks only windows of the batch whose turn has just resolved, as they were when
  its prompt was made. -/
  marks : (∀ runs, event ≠ .environment runs) → (pump.apply config event).runs = pump.runs ∨
    ∃ step answers drain prompt, event = .settle step (.resolved answers) ∧
      drain ∈ pump.drains ∧ drain.step = step ∧
      buildWakeTurnPrompt config.host drain.batch = some prompt ∧ (step, prompt) ∈ pump.turns ∧
      RunsMarkedBy drain.batch pump.runs (pump.apply config event).runs
  /-- After a turn that resolved, whose marks and whose re-read succeeded, another drain is
  scheduled if an unhandled window outside the batch exists. -/
  reschedules : ∀ step answers drain, event = .settle step (.resolved answers) →
    drain ∈ pump.drains → drain.step = step →
    (∀ wake ∈ drain.batch, ∃ now, answers.marks wake.runId = .marked now) →
    answers.unreadable = false →
    (∃ current ∈ listPending config (pump.apply config event).runs,
      ∀ drained ∈ drain.batch, sameWindow current drained = false) →
    (pump.apply config event).scheduled = true ∧ (pump.apply config event).microtasks = 1

theorem mapM_split {α β : Type*} {f : α → Option β} {xs : List α} {ys : List β} {x : α}
    (h : xs.mapM f = some ys) (member : x ∈ xs) :
    ∃ y before after, f x = some y ∧ ys = before ++ y :: after := by
  induction xs generalizing ys with
  | nil => cases member
  | cons first rest ih =>
      rw [List.mapM_cons] at h
      obtain ⟨y, head, h⟩ := Option.bind_eq_some_iff.mp h
      obtain ⟨tail, others, h⟩ := Option.bind_eq_some_iff.mp h
      obtain rfl := Option.some.inj h
      rcases List.mem_cons.mp member with rfl | member
      · exact ⟨y, [], tail, head, rfl⟩
      · obtain ⟨z, before, after, found, rfl⟩ := ih others member
        exact ⟨z, y :: before, after, found, rfl⟩

/-- The lines of every wake of the batch stand in the turn's prompt. -/
theorem prompt_contains {host : WakeHost} {prompt : String} {wake : PendingWake}
    (h : buildWakeTurnPrompt host batch = some prompt) (member : wake ∈ batch) :
    ∃ lines before after, wakeLines host wake = some lines ∧
      prompt = "\n".intercalate (before ++ lines ++ after) := by
  obtain ⟨all, read, built⟩ := Option.bind_eq_some_iff.mp h
  obtain ⟨lines, before, after, found, rfl⟩ := mapM_split read member
  refine ⟨lines, [promptOpening] ++ before.flatten,
    after.flatten ++ ["", resolutionRules, resumePipelineDetail], found, ?_⟩
  rw [← Option.some.inj built]
  simp

theorem WakePump.Sound.law (event : PumpEvent) (h : pump.Sound config) :
    PumpLaw config pump event := by
  constructor
  · rw [(h.apply event).flight]
    split
    · exact Nat.le_refl 1
    · exact Nat.zero_le 1
  · cases event with
    | notifyChange => exact .inl WakePump.schedule_turns
    | onTurnSettled => exact .inl WakePump.schedule_turns
    | startupScan => exact .inl WakePump.startupScan_turns
    | microtask lane => exact h.callback_turns lane
    | settle step outcome =>
        left
        show (pump.settle config step outcome).turns = pump.turns
        unfold WakePump.settle
        split
        · rfl
        · exact WakePump.afterTurn_turns
    | environment runs => exact .inl rfl
  · intro own
    cases event with
    | notifyChange => exact .inl WakePump.schedule_runs
    | onTurnSettled => exact .inl WakePump.schedule_runs
    | startupScan => exact .inl WakePump.startupScan_runs
    | microtask lane => exact .inl (WakePump.callback_runs lane)
    | settle step outcome =>
        show (pump.settle config step outcome).runs = pump.runs ∨ _
        cases found : pump.drains.find? (·.step = step) with
        | none => exact .inl (by simp [WakePump.settle, found])
        | some drain =>
            have member := List.mem_of_find?_eq_some found
            have same : drain.step = step := by simpa using List.find?_some found
            obtain ⟨prompt, built, called⟩ := h.inputs drain member
            cases outcome with
            | rejected =>
                left
                simp only [WakePump.settle, found]
                exact WakePump.afterTurn_rejected_runs
            | resolved answers =>
                refine .inr ⟨step, answers, drain, prompt, rfl, member, same, built,
                  same ▸ called, ?_⟩
                simp only [WakePump.apply, WakePump.settle, found,
                  WakePump.afterTurn_resolved_runs]
                exact markRuns_byRun answers drain.batch pump.runs
    | environment runs => exact absurd rfl (own runs)
  · rintro step answers drain rfl member rfl marked readable left
    have found := (h.find member).1
    simp only [WakePump.apply, WakePump.settle, found] at left ⊢
    exact WakePump.afterTurn_schedules h.queued marked readable left

/-- Every event after every run. -/
theorem wake_pump_law (config : WakePumpConfig) (runs : List OwnedRun) (events : List PumpEvent)
    (event : PumpEvent) : PumpLaw config (WakePump.run config runs events) event :=
  (WakePump.sound_run config runs events).law event

/-- No window is marked unseen: the turn's prompt shows each wake of its batch. -/
theorem marked_wakes_shown {runs : List OwnedRun} {events : List PumpEvent} {event : PumpEvent}
    (own : ∀ others, event ≠ .environment others)
    (changed : ((WakePump.run config runs events).apply config event).runs ≠
      (WakePump.run config runs events).runs) :
    ∃ step prompt batch, (step, prompt) ∈ (WakePump.run config runs events).turns ∧
      RunsMarkedBy batch (WakePump.run config runs events).runs
        ((WakePump.run config runs events).apply config event).runs ∧
      ∀ wake ∈ batch, ∃ lines before after, wakeLines config.host wake = some lines ∧
        prompt = "\n".intercalate (before ++ lines ++ after) := by
  have law := (WakePump.sound_run config runs events).law event
  obtain same | ⟨step, answers, drain, prompt, -, -, -, built, called, marked⟩ := law.marks own
  · exact absurd same changed
  · exact ⟨step, prompt, drain.batch, called, marked, fun wake => prompt_contains built⟩

def dayConfig : WakePumpConfig :=
  ⟨1, Nat.one_pos, none, ⟨⟨fun _ => .nan, fun _ => "1"⟩, fun _ => some "d"⟩⟩

def failedRun : OwnedRun := ⟨"r", [⟨.failed, 1, 1, 1, false, none⟩], none, ⟨1, .finite 0⟩⟩

/-- A pump in its first turn. -/
def failedPump : WakePump :=
  WakePump.run dayConfig [failedRun] [.notifyChange, .microtask ⟨false, false, false⟩]

def handledPump : WakePump :=
  failedPump.apply dayConfig (.settle 1 (.resolved ⟨fun _ => .marked 2, false⟩))

theorem marked_wakes_shown_failedPump : ∃ step prompt batch,
    (step, prompt) ∈ failedPump.turns ∧
      RunsMarkedBy batch failedPump.runs handledPump.runs ∧
      ∀ wake ∈ batch, ∃ lines before after, wakeLines dayConfig.host wake = some lines ∧
        prompt = "\n".intercalate (before ++ lines ++ after) := by
  have changed : handledPump.runs ≠ failedPump.runs := fun same =>
    absurd (congrArg (List.map (·.wake)) same) (by decide +kernel)
  exact marked_wakes_shown nofun changed

end AdCoder.BackgroundRuns
