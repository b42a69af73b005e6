import AdCoder.Orchestration.SessionRuns

/-!
# Unattended runs

The driver of an unattended run takes the one default transition that each step
offers. Its rounds stay under the cap, and each of its steps comes closer to the
end of the run.
-/

namespace AdCoder.Orchestration

open Foundation

/-- The default transition, if there is one. -/
def autoDriver (transitions : List AvailableTransition) : Option AvailableTransition :=
  transitions.find? (·.isDefault)

/-- Run the pending step and commit its default transition. -/
def Drives (config : PipelineConfig) (state : WorkflowState) (made : Committed)
    (next : WorkflowState) : Prop :=
  ∃ result, step config state made.outcome = .ok result ∧ made.phase = result.phase ∧
    made.verdict = result.verdict ∧ autoDriver result.transitions = some made.chosen ∧
    next = applyTransition result.state made.chosen

/-- The run of a driver that takes the default transition of every step until the run is
done, or until there is no outcome left. -/
def autoRun (config : PipelineConfig) :
    WorkflowState → List StepOutcome → Except StepError WorkflowState
  | state, [] => .ok state
  | state, outcome :: rest =>
      if state.done then .ok state
      else do
        let result ← step config state outcome
        match autoDriver result.transitions with
        | some chosen => autoRun config (applyTransition result.state chosen) rest
        | none => .error .turnFailed

/-- The reviews that a run made. -/
def reviewSteps (made : List Committed) : Nat := made.countP (·.phase = .review)

theorem Drives.commits {config : PipelineConfig} {state next : WorkflowState} {made : Committed}
    (h : Drives config state made next) : Commits config state made next := by
  obtain ⟨result, stepped, phase, verdict, default, rfl⟩ := h
  exact ⟨result, stepped, phase, verdict, List.mem_of_find?_eq_some default, rfl⟩

/-! ## Default transitions -/

/-- The stages that a round still has from a phase on, with those before it. -/
def WorkflowPhase.stages : WorkflowPhase → Nat
  | .plan => 6
  | .research => 5
  | .security => 4
  | .code => 3
  | .gates => 2
  | .review => 1
  | .done => 0

/-- A default transition settles, goes on in the round, or starts the next round. -/
def Onward (config : PipelineConfig) (state : WorkflowState) (t : AvailableTransition) : Prop :=
  t.toPhase = .done ∨
    (t.toRound = state.round ∧ t.toPhase.stages < state.phase.stages ∧
      state.phase ≠ .review) ∨
    (state.round < config.maxRounds ∧ t.toRound = state.round + 1 ∧ t.toPhase = .code ∧
      (state.phase = .gates ∨ state.phase = .review))

/-- What a step offers to a driver that takes defaults. -/
structure DefaultSpec (config : PipelineConfig) (state : WorkflowState) (result : StepResult) :
    Prop where
  one : result.transitions.countP (·.isDefault) = 1
  onward : ∀ t ∈ result.transitions, t.isDefault = true → Onward config state t
  escalated : result.state.escalation.isSome → state.escalation.isSome ∨
    ∀ t ∈ result.transitions, t.kind = .stop ∧ t.toPhase = .done
  blocked : state.phase = .review → ∀ t ∈ result.transitions, t.isDefault = true →
    t.toPhase ≠ .done → blockingVerdictCount result.state ≤ 1 ∧
      result.verdict.map (·.status) = some .changesRequested

section DefaultSpec

variable {config : PipelineConfig} {state : WorkflowState} {result : StepResult}

/-- An edge forward and an edge that settles; one of them is the default. -/
theorem DefaultSpec.of_advance {toPhase : WorkflowPhase} (phase : state.phase ≠ .review)
    (lower : toPhase.stages < state.phase.stages)
    (transitions : result.transitions =
      [advanceTo config toPhase state.round, stopHere config state.round])
    (escalation : result.state.escalation = state.escalation) :
    DefaultSpec config state result := by
  refine ⟨?_, ?_, fun set => .inl (escalation ▸ set), fun review => absurd review phase⟩
  · rw [transitions]
    cases auto : config.autoAdvance <;> simp [advanceTo, stopHere, auto]
  · intro t mem _
    rw [transitions] at mem
    simp only [List.mem_cons, List.not_mem_nil, or_false] at mem
    rcases mem with rfl | rfl
    · exact .inr (.inl ⟨rfl, lower, phase⟩)
    · exact .inl rfl

theorem planAttempts_escalation {evidence runId : String} {remaining : Nat}
    {attemptOf : String → ActiveWorkflowStage × Bool}
    {lastRejection : Option OrchestrationError} {turns : List PlanTurn} {handoff : PlanHandoff}
    (h : planAttempts evidence remaining attemptOf lastRejection runId state turns =
      .ok handoff) : handoff.settled.escalation = state.escalation := by
  induction remaining generalizing attemptOf lastRejection runId state turns with
  | zero => simp [planAttempts] at h
  | succ remaining ih =>
      cases turns with
      | nil => simp [planAttempts] at h
      | cons turn later =>
          simp only [planAttempts] at h
          split at h
          · obtain rfl := Except.ok.inj h
            rfl
          · exact (ih h).trans rfl
          · exact (ih h).trans rfl

theorem stepPlan_default {turns : List PlanTurn} {evidence : String}
    (phase : state.phase = .plan) (h : stepPlan config state turns evidence = .ok result) :
    DefaultSpec config state result := by
  unfold stepPlan at h
  split_ifs at h
  obtain ⟨handoff, found, h⟩ := bind_eq_ok.mp h
  obtain rfl := pure_eq_ok.mp h
  refine .of_advance (by simp [phase]) ?_ rfl (planAttempts_escalation found)
  rw [phase]
  split_ifs <;> decide

theorem stepResearch_default {turn : ResearchTurn} (phase : state.phase = .research)
    (h : stepResearch config state turn = .ok result) : DefaultSpec config state result := by
  unfold stepResearch at h
  cases configured : config.researcher
  · simp [configured] at h
  simp only [configured, Bool.not_true, Bool.false_eq_true, if_false] at h
  split at h
  · cases h
  · cases h
  · simp only [bind_eq_ok, require_eq_ok] at h
    obtain ⟨_, _, _, _, _, _, _, _, hpure⟩ := h
    obtain rfl := pure_eq_ok.mp hpure
    refine .of_advance (by simp [phase]) ?_ rfl rfl
    rw [phase]
    split_ifs <;> decide

theorem stepSecurity_default {turn : RoleTurn} (phase : state.phase = .security)
    (h : stepSecurity config state turn = .ok result) : DefaultSpec config state result := by
  unfold stepSecurity at h
  split_ifs at h
  obtain rfl := Except.ok.inj h
  refine .of_advance (by simp [phase]) ?_ rfl rfl
  rw [phase]
  decide

/-- Code and green gates offer rework as well, which is no default. -/
theorem DefaultSpec.of_rework {toPhase : WorkflowPhase} (phase : state.phase ≠ .review)
    (lower : toPhase.stages < state.phase.stages)
    (transitions : result.transitions =
      [advanceTo config toPhase state.round, reworkCode state.round, stopHere config state.round])
    (escalation : result.state.escalation = state.escalation) :
    DefaultSpec config state result := by
  refine ⟨?_, ?_, fun set => .inl (escalation ▸ set), fun review => absurd review phase⟩
  · rw [transitions]
    cases auto : config.autoAdvance <;> simp [advanceTo, stopHere, reworkCode, auto]
  · intro t mem default
    rw [transitions] at mem
    simp only [List.mem_cons, List.not_mem_nil, or_false] at mem
    rcases mem with rfl | rfl | rfl
    · exact .inr (.inl ⟨rfl, lower, phase⟩)
    · cases default
    · exact .inl rfl

theorem stepCode_default {turn : RoleTurn} (phase : state.phase = .code)
    (h : stepCode config state turn = .ok result) : DefaultSpec config state result := by
  unfold stepCode at h
  obtain rfl := Except.ok.inj h
  refine .of_rework (by simp [phase]) ?_ rfl rfl
  rw [phase]
  split_ifs <;> decide

theorem stepGates_default {runId : String} {report : GateReport} (phase : state.phase = .gates)
    (h : stepGates config state runId report = .ok result) : DefaultSpec config state result := by
  unfold stepGates at h
  split_ifs at h with _ passed below
  · obtain rfl := Except.ok.inj h
    refine .of_rework (by simp [phase]) ?_ rfl rfl
    rw [phase]
    decide
  · obtain rfl := Except.ok.inj h
    refine ⟨?_, ?_, fun set => .inl set, fun review => by simp [phase] at review⟩
    · cases auto : config.autoAdvance <;> simp [advanceTo, stopHere, auto]
    · intro t mem _
      simp only [List.mem_cons, List.not_mem_nil, or_false] at mem
      rcases mem with rfl | rfl
      · exact .inr (.inr ⟨below, rfl, rfl, .inl phase⟩)
      · exact .inl rfl
  · obtain rfl := Except.ok.inj h
    refine ⟨rfl, ?_, fun set => .inl set, fun review => by simp [phase] at review⟩
    intro t mem _
    obtain rfl := List.mem_singleton.mp mem
    exact .inl rfl

theorem stepReview_default {turns : List ReviewTurn}
    {inventory : Option (List RemovedTestInventoryEntry)} (phase : state.phase = .review)
    (h : stepReview config state turns inventory = .ok result) :
    DefaultSpec config state result := by
  simp only [stepReview, bind_eq_ok] at h
  obtain ⟨handoff, _, hpure⟩ := h
  obtain rfl := pure_eq_ok.mp hpure
  have settles : ∀ t ∈ [settle state.round], t.kind = .stop ∧ t.toPhase = .done := by
    intro t mem
    obtain rfl := List.mem_singleton.mp mem
    exact ⟨rfl, rfl⟩
  cases status : handoff.verdict.status with
  | approved =>
      refine ⟨rfl, ?_, fun set => .inl set, ?_⟩
      · intro t mem default
        simp only [reviewTransitions, List.mem_cons, List.not_mem_nil, or_false] at mem
        rcases mem with rfl | rfl
        · exact .inl rfl
        · cases default
      · intro _ t mem default
        simp only [reviewTransitions, List.mem_cons, List.not_mem_nil, or_false] at mem
        rcases mem with rfl | rfl
        · exact fun running => absurd rfl running
        · cases default
  | decompositionRequired =>
      exact ⟨rfl, fun t mem _ => .inl (settles t mem).2, fun _ => .inr settles,
        fun _ t mem _ running => absurd (settles t mem).2 running⟩
  | changesRequested =>
      dsimp only [reviewTransitions]
      split_ifs with second below
      · exact ⟨rfl, fun t mem _ => .inl (settles t mem).2, fun _ => .inr settles,
          fun _ t mem _ running => absurd (settles t mem).2 running⟩
      · refine ⟨?_, ?_, fun set => .inl set, ?_⟩
        · cases config.onChangesRequested <;> rfl
        · intro t mem _
          simp only [List.mem_cons, List.not_mem_nil, or_false] at mem
          rcases mem with rfl | rfl
          · exact .inr (.inr ⟨below, rfl, rfl, .inr phase⟩)
          · exact .inl rfl
        · intro _ t _ _ _
          exact ⟨Nat.le_of_lt_succ (Nat.lt_of_not_ge second), congrArg some status⟩
      · exact ⟨rfl, fun t mem _ => .inl (settles t mem).2, fun _ => .inr settles,
          fun _ t mem _ running => absurd (settles t mem).2 running⟩

/-- Every step that succeeds offers one default. -/
theorem step_default {outcome : StepOutcome} (h : step config state outcome = .ok result) :
    DefaultSpec config state result := by
  unfold step at h
  split at h
  case h_1 phase => exact stepPlan_default phase h
  case h_2 phase => exact stepResearch_default phase h
  case h_3 phase => exact stepSecurity_default phase h
  case h_4 phase => exact stepCode_default phase h
  case h_5 phase => exact stepGates_default phase h
  case h_6 phase => exact stepReview_default phase h
  all_goals cases h

end DefaultSpec

/-! ## Bounds -/

/-- The steps of a round with gates. -/
def WorkflowState.rank (config : PipelineConfig) (state : WorkflowState) : Nat :=
  if state.phase = .done then 0
  else 3 * (config.maxRounds - state.round) + state.phase.stages

/-- Steps that an unattended run may take. -/
def stepBound (config : PipelineConfig) : Nat := 3 * config.maxRounds + 3

/-- What holds after the steps of every unattended run. -/
structure Unattended (config : PipelineConfig) (made : List Committed) (state : WorkflowState) :
    Prop where
  done : state.done = true ↔ state.phase = .done
  round : state.round ≤ config.maxRounds
  reviews : reviewSteps made = state.verdicts.length
  blocking : state.done = false → blockingVerdictCount state = state.verdicts.length ∧
    state.verdicts.length ≤ 1 ∧ state.verdicts.length + 1 ≤ state.round
  settled : state.verdicts.length ≤ 2 ∧ state.verdicts.length ≤ state.round
  steps : made.length + state.rank config ≤ stepBound config

namespace Unattended

variable {config : PipelineConfig} {before : List Committed} {state next : WorkflowState}
  {made : Committed}

theorem start (config : PipelineConfig) : Unattended config [] (initialState config) := by
  have one := config.maxRounds_pos
  refine ⟨(RunInvariant.start config).done, one, rfl, fun _ => by simp [initialState,
    blockingVerdictCount], by simp [initialState], ?_⟩
  cases planned : config.planner <;>
    simp [WorkflowState.rank, initialState, stepBound, planned, WorkflowPhase.stages] <;> omega

/-- A step that does not review leaves the verdicts as they were. -/
theorem verdicts_of_unreviewed (inv : Unattended config before state)
    (spec : CommitSpec state made next) (phase : state.phase ≠ .review) :
    next.verdicts = state.verdicts ∧ reviewSteps (before ++ [made]) = next.verdicts.length := by
  have same := spec.verdicts_eq phase
  refine ⟨same, ?_⟩
  rw [same, ← inv.reviews]
  simp [reviewSteps, spec.phase, phase]

/-- A review adds one verdict. -/
theorem verdicts_of_reviewed (inv : Unattended config before state)
    (spec : CommitSpec state made next) (phase : state.phase = .review) :
    next.verdicts.length = state.verdicts.length + 1 ∧
      reviewSteps (before ++ [made]) = next.verdicts.length := by
  obtain ⟨verdict, found⟩ := Option.isSome_iff_exists.mp (spec.reviewed.mpr phase)
  have added : next.verdicts.length = state.verdicts.length + 1 := by simp [spec.verdicts, found]
  refine ⟨added, ?_⟩
  rw [added, ← inv.reviews]
  simp [reviewSteps, spec.phase, phase]

/-- A first verdict that asks for changes keeps every verdict blocking. -/
theorem blocking_of_changes {result : StepResult} (inv : Unattended config before state)
    (running : state.done = false)
    (added : result.state.verdicts = state.verdicts ++ result.verdict.toList)
    (changes : result.verdict.map (·.status) = some .changesRequested)
    (few : blockingVerdictCount result.state ≤ 1) :
    blockingVerdictCount result.state = result.state.verdicts.length ∧
      result.state.verdicts.length ≤ 1 := by
  obtain ⟨verdict, found, status⟩ := Option.map_eq_some_iff.mp changes
  have count : blockingVerdictCount result.state = blockingVerdictCount state + 1 := by
    simp [blockingVerdictCount, added, found, status]
  have length : result.state.verdicts.length = state.verdicts.length + 1 := by
    simp [added, found]
  have all := (inv.blocking running).1
  omega

theorem step (inv : Unattended config before state) (h : Drives config state made next) :
    Unattended config (before ++ [made]) next := by
  have spec := h.commits.spec
  have running : state.done = false := by
    simpa using mt inv.done.mp spec.running
  obtain ⟨result, stepped, phase, verdict, default, rfl⟩ := h
  have control := (step_spec stepped).control
  simp only [WorkflowState.control, Control.mk.injEq] at control
  obtain ⟨_, round, verdicts, -, -, -⟩ := control
  have offers := step_default stepped
  obtain ⟨-, few, above⟩ := inv.blocking running
  have steps := inv.steps
  have positive : 0 < state.phase.stages := by
    cases current : state.phase with
    | done => exact absurd current spec.running
    | _ => decide
  have rank : state.rank config = 3 * (config.maxRounds - state.round) + state.phase.stages :=
    if_neg spec.running
  have counted : (applyTransition result.state made.chosen).verdicts.length ≤
      state.verdicts.length + 1 ∧
      reviewSteps (before ++ [made]) =
        (applyTransition result.state made.chosen).verdicts.length := by
    by_cases review : state.phase = .review
    · obtain ⟨added, counted⟩ := inv.verdicts_of_reviewed spec review
      exact ⟨added.le, counted⟩
    · obtain ⟨same, counted⟩ := inv.verdicts_of_unreviewed spec review
      exact ⟨by rw [same]; omega, counted⟩
  have entered := spec.entered
  have ends := spec.done running
  have chosen := List.mem_of_find?_eq_some default
  have isDefault := List.find?_some default
  by_cases settles : made.chosen.toPhase = .done
  · have kept : (applyTransition result.state made.chosen).round = state.round := by
      simp [applyTransition, settles, round]
    have zero : (applyTransition result.state made.chosen).rank config = 0 :=
      if_pos (entered.trans settles)
    refine ⟨by rw [ends, entered], kept ▸ inv.round, counted.2, fun going => ?_, ⟨?_, ?_⟩, ?_⟩
    · rw [ends.mpr settles] at going
      cases going
    · omega
    · omega
    · simp only [List.length_append, List.length_cons, List.length_nil]
      omega
  · have moved : (applyTransition result.state made.chosen).round = made.chosen.toRound := by
      simp [applyTransition, settles]
    have lower : (applyTransition result.state made.chosen).rank config =
        3 * (config.maxRounds - made.chosen.toRound) + made.chosen.toPhase.stages := by
      rw [WorkflowState.rank, entered, moved, if_neg settles]
    have same : blockingVerdictCount (applyTransition result.state made.chosen) =
        blockingVerdictCount result.state := by simp [blockingVerdictCount]
    have cap := inv.round
    rcases offers.onward _ chosen isDefault with stop | ⟨sameRound, stages, unreviewed⟩ |
      ⟨below, nextRound, code, source⟩
    · exact absurd stop settles
    · obtain ⟨unchanged, -⟩ := inv.verdicts_of_unreviewed spec unreviewed
      have all : blockingVerdictCount (applyTransition result.state made.chosen) =
          (applyTransition result.state made.chosen).verdicts.length := by
        have before := (inv.blocking running).1
        rw [blockingVerdictCount, unchanged]
        exact before
      refine ⟨by rw [ends, entered], by omega, counted.2, fun _ => ⟨all, ?_⟩, ?_, ?_⟩
      · rw [unchanged, moved, sameRound]
        exact ⟨few, above⟩
      · rw [unchanged, moved, sameRound]
        exact ⟨by omega, by omega⟩
      · simp only [List.length_append, List.length_cons, List.length_nil]
        rw [sameRound] at lower
        omega
    · have all : blockingVerdictCount (applyTransition result.state made.chosen) =
          (applyTransition result.state made.chosen).verdicts.length ∧
          (applyTransition result.state made.chosen).verdicts.length ≤ 1 := by
        rcases source with gates | review
        · have unchanged := spec.verdicts_eq (by simp [gates])
          have before := (inv.blocking running).1
          rw [blockingVerdictCount, unchanged]
          exact ⟨before, few⟩
        · obtain ⟨single, changes⟩ := offers.blocked review _ chosen isDefault settles
          rw [same, applyTransition_verdicts]
          exact inv.blocking_of_changes running verdicts changes single
      refine ⟨by rw [ends, entered], by omega, counted.2, fun _ => ⟨all.1, all.2, ?_⟩,
        ⟨by omega, by omega⟩, ?_⟩
      · omega
      · simp only [List.length_append, List.length_cons, List.length_nil]
        rw [nextRound, code] at lower
        have code : WorkflowPhase.code.stages = 3 := rfl
        omega

end Unattended

theorem unattended_of_run {config : PipelineConfig} {made : List Committed}
    {state : WorkflowState} (run : Run (Drives config) (initialState config) made state) :
    Unattended config made state :=
  run.invariant_labels (fun inv h => inv.step h) (Unattended.start config)

/-- A run of the loop is a run of default transitions, to the end of the run or of the
outcomes. -/
theorem run_of_autoRun {config : PipelineConfig} {state final : WorkflowState}
    {outcomes : List StepOutcome} (h : autoRun config state outcomes = .ok final) :
    ∃ made, Run (Drives config) state made final ∧
      (final.done = true ∨ made.length = outcomes.length) := by
  induction outcomes generalizing state with
  | nil =>
      obtain rfl := Except.ok.inj h
      exact ⟨[], .refl _, .inr rfl⟩
  | cons outcome rest ih =>
      rw [autoRun] at h
      split_ifs at h with done
      · obtain rfl := Except.ok.inj h
        exact ⟨[], .refl _, .inl done⟩
      · obtain ⟨result, stepped, h⟩ := bind_eq_ok.mp h
        split at h
        · rename_i chosen default
          obtain ⟨made, run, ends⟩ := ih h
          have first : Drives config state ⟨result.phase, outcome, result.verdict, chosen⟩
              (applyTransition result.state chosen) := ⟨result, stepped, rfl, rfl, default, rfl⟩
          refine ⟨_, (Run.single first).append run, ends.imp_right fun length => ?_⟩
          simp [length]
        · cases h

/-- The loop ends done where there are outcomes enough. -/
theorem done_of_autoRun {config : PipelineConfig} {final : WorkflowState}
    {outcomes : List StepOutcome} (enough : stepBound config ≤ outcomes.length)
    (h : autoRun config (initialState config) outcomes = .ok final) : final.done = true := by
  obtain ⟨made, run, done | length⟩ := run_of_autoRun h
  · exact done
  · have inv := unattended_of_run run
    have steps := inv.steps
    rw [inv.done]
    by_contra going
    have rank : final.rank config = 3 * (config.maxRounds - final.round) + final.phase.stages :=
      if_neg going
    have positive : 0 < final.phase.stages := by
      cases current : final.phase with
      | done => exact absurd current going
      | _ => decide
    omega

example : (autoRun coderReviewer (initialState coderReviewer)
    [codeTurn "a", approvalTurn "b"]).toOption.map (·.round) = some 1 := by decide +kernel

/-! ## Escalation -/

/-- A run that goes on has not been escalated. -/
theorem escalation_of_run {config : PipelineConfig} {made : List Committed}
    {state : WorkflowState} (run : Run (Commits config) (initialState config) made state) :
    state.phase ≠ .done → state.escalation = none := by
  refine run.invariant (I := fun state => state.phase ≠ .done → state.escalation = none) ?_
    fun _ => rfl
  rintro before committed next inv h
  have spec := h.spec
  obtain ⟨result, stepped, -, -, chosen, rfl⟩ := h
  intro going
  have calm := inv spec.running
  have toPhase : committed.chosen.toPhase ≠ .done := by
    rwa [applyTransition_phase] at going
  have kept : (applyTransition result.state committed.chosen).escalation =
      result.state.escalation := by
    unfold applyTransition
    split_ifs <;> rfl
  rw [kept]
  by_contra set
  rcases (step_default stepped).escalated (Option.isSome_iff_ne_none.mpr set) with before | stops
  · simp [calm] at before
  · exact toPhase (stops _ chosen).2

/-! ## The bounds of an unattended run -/

/-- Every step offers one default. The driver that takes it stays within the rounds, reviews
at most twice and never more often than there are rounds, and is done after three steps more
than three for each round, if no step throws. An escalated run can only stop. -/
theorem unattended_bounded (config : PipelineConfig) :
    (∀ state outcome result, step config state outcome = .ok result →
      result.transitions.countP (·.isDefault) = 1) ∧
    (∀ made state, Run (Drives config) (initialState config) made state →
      state.round ≤ config.maxRounds ∧ reviewSteps made ≤ min 2 config.maxRounds ∧
        made.length ≤ stepBound config) ∧
    (∀ outcomes final, stepBound config ≤ outcomes.length →
      autoRun config (initialState config) outcomes = .ok final → final.done = true) ∧
    ∀ made state outcome result, Run (Commits config) (initialState config) made state →
      step config state outcome = .ok result → result.state.escalation.isSome →
        ∀ t ∈ result.transitions, t.kind = .stop := by
  refine ⟨fun state outcome result stepped => (step_default stepped).one, ?_,
    fun outcomes final enough h => done_of_autoRun enough h, ?_⟩
  · intro made state run
    have inv := unattended_of_run run
    have round := inv.round
    have settled := inv.settled
    have reviews := inv.reviews
    have steps := inv.steps
    exact ⟨round, by omega, by omega⟩
  · intro made state outcome result run stepped set t mem
    have running : state.phase ≠ .done := by
      intro done
      cases outcome <;> simp [step, done] at stepped
    rcases (step_default stepped).escalated set with before | stops
    · simp [escalation_of_run run running] at before
    · exact (stops t mem).1

end AdCoder.Orchestration
