import AdCoder.Orchestration.Session
import Mathlib.Algebra.BigOperators.Group.List.Basic
import Mathlib.Algebra.Group.Prod
import Mathlib.Algebra.GroupWithZero.Nat
import Mathlib.Algebra.Ring.Rat

/-!
# What a step records of the turns it ran

A completed step adds the usage of its last attempt to the record, and where it
resumes a paused attempt it merges that one's usage in and takes the paused
entries of the step out.
-/

namespace AdCoder.Orchestration

open Foundation

/-- Cost, input tokens and output tokens. -/
abbrev Usage := ℚ × ℕ × ℕ

def PipelineStageMetrics.usage (metrics : PipelineStageMetrics) : Usage :=
  (metrics.costUsd.getD 0, metrics.input, metrics.output)

def totalUsage (metrics : List PipelineStageMetrics) : Usage := (metrics.map (·.usage)).sum

/-- The usage that is recorded for a stage. -/
def stageTotal (stage : String) (metrics : List PipelineStageMetrics) : Usage :=
  totalUsage (metrics.filter (·.stage == stage))

def pausedEntries (stage : String) (metrics : List PipelineStageMetrics) :
    List PipelineStageMetrics :=
  metrics.filter fun metric => metric.stage == stage && metric.status == some .paused

/-- The name under which the turns of a state's step are accounted. -/
def stageName (state : WorkflowState) : String :=
  match state.phase with
  | .code => "code:" ++ toString state.round
  | .review => "review:" ++ toString state.round
  | phase => phase.text

/-- The planner turns that ran: up to the one that handed a plan over. -/
def planTurnsRun : Nat → List PlanTurn → List PlanTurn
  | 0, _ => []
  | _ + 1, [] => []
  | remaining + 1, turn :: later =>
      match turn.captured with
      | some (.ok _) => [turn]
      | _ => turn :: planTurnsRun remaining later

/-- The reviewer turns that ran: up to the one that submitted. -/
def reviewTurnsRun : Nat → List ReviewTurn → List ReviewTurn
  | 0, _ => []
  | _ + 1, [] => []
  | remaining + 1, turn :: later =>
      if turn.submissions.isEmpty then turn :: reviewTurnsRun remaining later else [turn]

/-- The metrics of the turns that a step ran. -/
def StepOutcome.turns (config : PipelineConfig) : StepOutcome → List PipelineStageMetrics
  | .plan turns _ => (planTurnsRun config.plannerHandoffAttempts turns).map (·.metrics)
  | .research turn => [turn.metrics]
  | .security turn => [turn.metrics]
  | .code turn => [turn.metrics]
  | .gates _ _ => []
  | .review turns _ => (reviewTurnsRun reviewSubmissionAttempts turns).map (·.metrics)

/-- The turns of a step that it never records: of a review, all but the last. -/
def StepOutcome.unrecorded (config : PipelineConfig) (outcome : StepOutcome) :
    List PipelineStageMetrics :=
  match outcome with
  | .review _ _ => (outcome.turns config).dropLast
  | _ => []

/-- The run ids of turns in order, of which the first may resume an attempt. -/
def attemptRunIds (attemptOf : String → ActiveWorkflowStage × Bool) : List String → List String
  | [] => []
  | fresh :: later => (attemptOf fresh).1.runId :: later

/-- The run ids of the role turns that a step runs. -/
def StepOutcome.runIds (config : PipelineConfig) (state : WorkflowState) :
    StepOutcome → List String
  | .plan turns _ => attemptRunIds (stageAttempt state .plan "plan")
      ((planTurnsRun config.plannerHandoffAttempts turns).map (·.fresh))
  | .research _ => state.researchIntent.toList.map fun intent =>
      String.ofList (intent.queryHash.toList.take 32)
  | .security turn => attemptRunIds (stageAttempt state .security "security") [turn.fresh]
  | .code turn => attemptRunIds (stageAttempt state .code ("code:" ++ toString state.round))
      [turn.fresh]
  | .gates _ _ => []
  | .review turns _ =>
      attemptRunIds (stageAttempt state .review ("review:" ++ toString state.round))
        ((reviewTurnsRun reviewSubmissionAttempts turns).map (·.fresh))

/-- The run ids under which a reviewer was asked again. -/
def StepOutcome.retried (config : PipelineConfig) (state : WorkflowState)
    (outcome : StepOutcome) : List String :=
  match outcome with
  | .review _ _ => (outcome.runIds config state).tail
  | _ => []

/-- The paused attempt that a step of the state resumes. -/
def resumedStage (state : WorkflowState) : Option ActiveWorkflowStage :=
  match state.phase with
  | .research => none
  | .gates => none
  | .done => none
  | phase => state.activeStage.filter fun active =>
      active.phase = phase && active.step = stageName state

/-- The usage that a resumed attempt brings with it. -/
def broughtUsage (resumed : Option ActiveWorkflowStage) : Usage :=
  (resumed.bind (·.metrics)).elim 0 (·.usage)

/-- The usage that resuming an attempt takes out of the record. -/
def replacedUsage (stage : String) (metrics : List PipelineStageMetrics)
    (resumed : Option ActiveWorkflowStage) : Usage :=
  resumed.elim 0 fun _ => totalUsage (pausedEntries stage metrics)

@[simp] theorem broughtUsage_none : broughtUsage none = 0 := rfl

@[simp] theorem replacedUsage_none (stage : String) (metrics : List PipelineStageMetrics) :
    replacedUsage stage metrics none = 0 := rfl

/-! ## Totals -/

section Totals

variable {stage : String} {metrics other : List PipelineStageMetrics}

@[simp] theorem totalUsage_nil : totalUsage [] = 0 := rfl

@[simp] theorem totalUsage_cons (first : PipelineStageMetrics) :
    totalUsage (first :: metrics) = first.usage + totalUsage metrics := by
  simp [totalUsage]

@[simp] theorem totalUsage_append :
    totalUsage (metrics ++ other) = totalUsage metrics + totalUsage other := by
  simp [totalUsage]

theorem totalUsage_perm (h : metrics.Perm other) : totalUsage metrics = totalUsage other :=
  (h.map _).sum_eq

@[simp] theorem stageTotal_nil : stageTotal stage [] = 0 := rfl

@[simp] theorem stageTotal_append :
    stageTotal stage (metrics ++ other) = stageTotal stage metrics + stageTotal stage other := by
  simp [stageTotal]

/-- Entries of one stage are all counted for it. -/
theorem stageTotal_of_stage (h : ∀ metric ∈ metrics, metric.stage = stage) :
    stageTotal stage metrics = totalUsage metrics := by
  rw [stageTotal, List.filter_eq_self.mpr]
  intro metric member
  simp [h metric member]

theorem pausedEntries_of_paused
    (h : ∀ metric ∈ metrics, metric.stage = stage ∧ metric.status = some .paused) :
    pausedEntries stage metrics = metrics := by
  rw [pausedEntries, List.filter_eq_self]
  intro metric member
  simp [h metric member]

@[simp] theorem pausedEntries_append :
    pausedEntries stage (metrics ++ other) =
      pausedEntries stage metrics ++ pausedEntries stage other :=
  List.filter_append ..

/-- The record of a stage is its paused entries and the others. -/
theorem stageTotal_unpaused :
    stageTotal stage (metrics.filter fun metric =>
        !(metric.stage == stage && metric.status == some .paused)) +
      totalUsage (pausedEntries stage metrics) = stageTotal stage metrics := by
  let own := metrics.filter (·.stage == stage)
  let paused (metric : PipelineStageMetrics) : Bool := metric.status == some .paused
  have running : (metrics.filter fun metric =>
      !(metric.stage == stage && metric.status == some .paused)).filter (·.stage == stage) =
        own.filter fun metric => !paused metric := by
    simp only [own, paused, List.filter_filter]
    refine List.filter_congr fun metric _ => ?_
    cases metric.stage == stage <;> cases metric.status == some .paused <;> rfl
  have stopped : pausedEntries stage metrics = own.filter paused := by
    simp only [own, paused, pausedEntries, List.filter_filter]
    exact List.filter_congr fun metric _ => Bool.and_comm ..
  calc stageTotal stage _ + totalUsage (pausedEntries stage metrics)
      = totalUsage (own.filter paused ++ own.filter fun metric => !paused metric) := by
        rw [stageTotal, running, stopped, totalUsage_append, add_comm]
    _ = totalUsage own := totalUsage_perm (List.filter_append_perm paused own)

theorem usage_mergeMetrics (prior metrics : PipelineStageMetrics) :
    (mergeMetrics prior metrics).usage = prior.usage + metrics.usage := rfl

end Totals

/-! ## Settling an attempt -/

section Settling

variable {stage : String}

/-- The attempt of a stage that resumes what is given, or is a fresh one. -/
def attemptFrom (resumed : Option ActiveWorkflowStage) (phase : WorkflowPhase)
    (stage fresh : String) : ActiveWorkflowStage × Bool :=
  match resumed with
  | some active => (active, true)
  | none => freshAttempt phase stage fresh

theorem stageAttempt_eq {state : WorkflowState} {phase : WorkflowPhase} (fresh : String) :
    stageAttempt state phase stage fresh = attemptFrom (state.activeStage.filter fun active =>
      active.phase = phase && active.step = stage) phase stage fresh := by
  rw [stageAttempt]
  cases state.activeStage with
  | none => rfl
  | some active =>
      by_cases same : active.phase = phase ∧ active.step = stage
      · simp [same, attemptFrom, Option.filter]
      · have other : ¬ (decide (active.phase = phase) && decide (active.step = stage)) = true := by
          simpa using same
        simp [same, other, attemptFrom, Option.filter, freshAttempt]

/-- The record of a stage after an attempt was settled. -/
theorem stageTotal_settledStage (state : WorkflowState) (phase : WorkflowPhase) (fresh : String)
    {resumed : Option ActiveWorkflowStage} {metrics : PipelineStageMetrics}
    (own : ∀ active ∈ resumed, active.step = stage)
    (turned : metrics.stage = stage) :
    stageTotal stage (settledStage state (attemptFrom resumed phase stage fresh).1
        (attemptFrom resumed phase stage fresh).2 metrics).stageMetrics +
      replacedUsage stage state.stageMetrics resumed =
    stageTotal stage state.stageMetrics + (broughtUsage resumed + metrics.usage) := by
  cases resumed with
  | none =>
      have all : state.stageMetrics.filter (fun _ => true) = state.stageMetrics := by simp
      have own : stageTotal stage [metrics] = metrics.usage := by
        rw [stageTotal_of_stage (by simpa using turned), totalUsage_cons, totalUsage_nil, add_zero]
      simp [attemptFrom, freshAttempt, settledStage, replacedUsage, broughtUsage, all, own]
  | some active =>
      have merged : stageTotal stage [(active.metrics.map (mergeMetrics · metrics)).getD metrics] =
          broughtUsage (some active) + metrics.usage := by
        rw [stageTotal_of_stage]
        · cases brought : active.metrics <;> simp [broughtUsage, brought, usage_mergeMetrics]
        · cases active.metrics <;> simp [turned, mergeMetrics]
      calc _ = stageTotal stage (state.stageMetrics.filter fun metric =>
              !(metric.stage == stage && metric.status == some .paused)) +
              (broughtUsage (some active) + metrics.usage) +
            totalUsage (pausedEntries stage state.stageMetrics) := by
            simp only [attemptFrom, settledStage, own active rfl, Bool.true_and, if_true,
              stageTotal_append, merged, replacedUsage, Option.elim_some]
        _ = _ := by
            rw [add_right_comm, stageTotal_unpaused]

end Settling

/-! ## Steps -/

section Steps

variable {config : PipelineConfig} {state : WorkflowState} {result : StepResult}

theorem resumedStage_step {active : ActiveWorkflowStage} (h : active ∈ resumedStage state) :
    active.step = stageName state := by
  rw [resumedStage.eq_def] at h
  split at h
  · cases h
  · cases h
  · cases h
  · simp only [Option.mem_def, Option.filter_eq_some_iff, Bool.and_eq_true, decide_eq_true_eq] at h
    exact h.2.2

/-- The state after the planner's turns were settled in order, the first one as the given
attempt. -/
def settleTurns (attemptOf : String → ActiveWorkflowStage × Bool) (state : WorkflowState) :
    List PlanTurn → WorkflowState
  | [] => state
  | turn :: later => settleTurns (freshAttempt .plan "plan")
      (settledStage state (attemptOf turn.fresh).1 (attemptOf turn.fresh).2 turn.metrics) later

/-- A planner that hands a plan over has settled every turn it ran. -/
theorem planAttempts_settleTurns {evidence runId : String} {remaining : Nat}
    {attemptOf : String → ActiveWorkflowStage × Bool}
    {lastRejection : Option OrchestrationError} {turns : List PlanTurn} {handoff : PlanHandoff}
    (h : planAttempts evidence remaining attemptOf lastRejection runId state turns =
      .ok handoff) :
    planTurnsRun remaining turns ≠ [] ∧
      handoff.settled = settleTurns attemptOf state (planTurnsRun remaining turns) := by
  induction remaining generalizing attemptOf lastRejection runId state turns with
  | zero => simp [planAttempts] at h
  | succ remaining ih =>
      cases turns with
      | nil => simp [planAttempts] at h
      | cons turn later =>
          simp only [planAttempts] at h
          split at h
          · next plan captured =>
              obtain rfl := Except.ok.inj h
              simp [planTurnsRun, captured, settleTurns]
          · next rejection captured =>
              simpa [planTurnsRun, captured, settleTurns] using (ih h).2
          · next captured => simpa [planTurnsRun, captured, settleTurns] using (ih h).2

/-- What each settled turn adds to a measure of the record adds up over the turns. -/
theorem settleTurns_adds {measure : List PipelineStageMetrics → Usage}
    {resumed : Option ActiveWorkflowStage} {turn : PlanTurn} {later : List PlanTurn}
    (own : ∀ active ∈ resumed, active.step = "plan")
    (once : ∀ (before : WorkflowState) (resumed : Option ActiveWorkflowStage),
      ∀ ran ∈ turn :: later, (∀ active ∈ resumed, active.step = "plan") →
        measure (settledStage before (attemptFrom resumed .plan "plan" ran.fresh).1
            (attemptFrom resumed .plan "plan" ran.fresh).2 ran.metrics).stageMetrics +
          replacedUsage "plan" before.stageMetrics resumed =
        measure before.stageMetrics + (broughtUsage resumed + ran.metrics.usage)) :
    measure (settleTurns (attemptFrom resumed .plan "plan") state (turn :: later)).stageMetrics +
        replacedUsage "plan" state.stageMetrics resumed =
      measure state.stageMetrics + (broughtUsage resumed +
        totalUsage ((turn :: later).map (·.metrics))) := by
  induction later generalizing resumed state turn with
  | nil => simpa [settleTurns] using once state resumed turn (by simp) own
  | cons next later ih =>
      have first := once state resumed turn (by simp) own
      rw [settleTurns]
      generalize settledStage state _ _ _ = settled at first ⊢
      have rest : measure (settleTurns (attemptFrom none .plan "plan") settled
            (next :: later)).stageMetrics + replacedUsage "plan" settled.stageMetrics none =
          measure settled.stageMetrics + (broughtUsage none +
            totalUsage ((next :: later).map (·.metrics))) :=
        ih (by simp) fun before resumed ran member => once before resumed ran (.tail _ member)
      rw [replacedUsage_none, add_zero, broughtUsage_none, zero_add] at rest
      calc measure (settleTurns (freshAttempt .plan "plan") settled (next :: later)).stageMetrics +
            replacedUsage "plan" state.stageMetrics resumed
          = measure state.stageMetrics + (broughtUsage resumed + turn.metrics.usage) +
              totalUsage ((next :: later).map (·.metrics)) := by
            rw [← first, add_right_comm, ← rest]
            rfl
        _ = _ := by
            rw [List.map_cons (l := next :: later), totalUsage_cons]
            simp only [add_assoc]

theorem reviewTurnsRun_of_attempts {inventory : Option (List RemovedTestInventoryEntry)}
    {firstRunId : String} {remaining : Nat} {runId : String → String} {turns : List ReviewTurn}
    {handoff : ReviewHandoff}
    (h : reviewAttempts state inventory firstRunId remaining runId turns = .ok handoff) :
    ((reviewTurnsRun remaining turns).map (·.metrics)).dropLast ++ [handoff.metrics] =
      (reviewTurnsRun remaining turns).map (·.metrics) := by
  induction remaining generalizing runId turns with
  | zero => simp [reviewAttempts] at h
  | succ remaining ih =>
      cases turns with
      | nil => simp [reviewAttempts] at h
      | cons turn later =>
          simp only [reviewAttempts, captureVerdict] at h
          cases submitted : turn.submissions.getLast? with
          | none =>
              have silent : turn.submissions = [] := by simpa using submitted
              simp only [submitted, Option.map_none] at h
              have rest := ih h
              have some : (reviewTurnsRun remaining later).map (·.metrics) ≠ [] := by
                intro none
                simp [none] at rest
              simp only [reviewTurnsRun, silent, List.isEmpty_nil, if_true, List.map_cons]
              rw [List.dropLast_cons_of_ne_nil some, List.cons_append, rest]
          | some value =>
              have spoke : turn.submissions ≠ [] := by
                rintro silent
                simp [silent] at submitted
              simp only [submitted, Option.map_some] at h
              split at h
              · obtain rfl := Except.ok.inj h
                simp [reviewTurnsRun, spoke]
              · cases h
              · next none => simp at none

/-- What a state records of its turns: their metrics and the names of their runs. -/
def WorkflowState.record (state : WorkflowState) : List PipelineStageMetrics × List String :=
  (state.stageMetrics, state.runIds)

/-- How a step of the state changes what is recorded: the planner settles each of its turns, a
stage settles the last one, and the others append to the record. -/
inductive Recorded (config : PipelineConfig) (state : WorkflowState) :
    StepOutcome → WorkflowState → Prop
  | planned {turns : List PlanTurn} {evidence : String} {after : WorkflowState}
      (phase : state.phase = .plan)
      (ran : planTurnsRun config.plannerHandoffAttempts turns ≠ [])
      (record : after.record = (settleTurns
        (attemptFrom (resumedStage state) .plan "plan") state
        (planTurnsRun config.plannerHandoffAttempts turns)).record) :
      Recorded config state (.plan turns evidence) after
  | settled {outcome : StepOutcome} {after : WorkflowState} (fresh : String)
      (metrics : PipelineStageMetrics)
      (turns : outcome.unrecorded config ++ [metrics] = outcome.turns config)
      (ids : outcome.runIds config state = (attemptFrom (resumedStage state) state.phase
        (stageName state) fresh).1.runId :: outcome.retried config state)
      (record : after.record = (settledStage state
        (attemptFrom (resumedStage state) state.phase (stageName state) fresh).1
        (attemptFrom (resumedStage state) state.phase (stageName state) fresh).2
        metrics).record) : Recorded config state outcome after
  | appended {outcome : StepOutcome} {after : WorkflowState} (ids : List String)
      (afresh : resumedStage state = none) (all : outcome.unrecorded config = [])
      (once : outcome.retried config state = [])
      (named : ∀ id ∈ outcome.runIds config state, id ∈ ids)
      (record : after.record =
        (state.stageMetrics ++ outcome.turns config, state.runIds ++ ids)) :
      Recorded config state outcome after

/-- The record after a step, with what was taken out or left out, is the record before it with
what was brought and what ran. -/
def Balances (config : PipelineConfig) (state : WorkflowState) (outcome : StepOutcome)
    (after : List PipelineStageMetrics) : Prop :=
  stageTotal (stageName state) after +
      (replacedUsage (stageName state) state.stageMetrics (resumedStage state) +
        totalUsage (outcome.unrecorded config)) =
    stageTotal (stageName state) state.stageMetrics +
      (broughtUsage (resumedStage state) + totalUsage (outcome.turns config))

theorem stepPlan_recorded {turns : List PlanTurn} {evidence : String}
    (phase : state.phase = .plan) (h : stepPlan config state turns evidence = .ok result) :
    Recorded config state (.plan turns evidence) result.state := by
  have attempts : stageAttempt state .plan "plan" =
      attemptFrom (resumedStage state) .plan "plan" := by
    funext fresh
    simp only [stageAttempt_eq, resumedStage, phase, stageName, WorkflowPhase.text]
  unfold stepPlan at h
  split_ifs at h
  simp only [bind_eq_ok] at h
  obtain ⟨handoff, handed, made⟩ := h
  obtain rfl := pure_eq_ok.mp made
  rw [attempts] at handed
  obtain ⟨ran, settled⟩ := planAttempts_settleTurns handed
  have recorded := congrArg WorkflowState.record settled
  exact .planned phase ran recorded

theorem stepResearch_recorded {turn : ResearchTurn} (phase : state.phase = .research)
    (h : stepResearch config state turn = .ok result) :
    Recorded config state (.research turn) result.state := by
  unfold stepResearch at h
  cases configured : config.researcher
  · simp [configured] at h
  simp only [configured, Bool.not_true, Bool.false_eq_true, if_false] at h
  split at h
  · cases h
  · cases h
  · next intent analysis prepared analysed =>
      simp only [bind_eq_ok, require_eq_ok] at h
      obtain ⟨_, _, _, _, _, _, _, _, made⟩ := h
      obtain rfl := pure_eq_ok.mp made
      exact .appended [String.ofList (intent.queryHash.toList.take 32)]
        (by simp [resumedStage, phase]) rfl rfl (by simp [StepOutcome.runIds, prepared]) rfl

theorem stepGates_recorded {runId : String} {report : GateReport} (phase : state.phase = .gates)
    (h : stepGates config state runId report = .ok result) :
    Recorded config state (.gates runId report) result.state := by
  unfold stepGates at h
  split_ifs at h
  all_goals
    obtain rfl := Except.ok.inj h
    exact .appended [runId] (by simp [resumedStage, phase]) rfl rfl
      (by simp [StepOutcome.runIds]) (by simp [WorkflowState.record, StepOutcome.turns])

theorem stepReview_recorded {turns : List ReviewTurn}
    {inventory : Option (List RemovedTestInventoryEntry)} (phase : state.phase = .review)
    (h : stepReview config state turns inventory = .ok result) :
    Recorded config state (.review turns inventory) result.state := by
  have named : "review:" ++ toString state.round = stageName state := by simp [stageName, phase]
  have attempt (fresh : String) : stageAttempt state .review (stageName state) fresh =
      attemptFrom (resumedStage state) state.phase (stageName state) fresh := by
    simp only [stageAttempt_eq, resumedStage, phase]
  simp only [stepReview, bind_eq_ok, named, attempt] at h
  obtain ⟨handoff, reviewed, made⟩ := h
  obtain rfl := pure_eq_ok.mp made
  cases turns with
  | nil => simp [reviewAttempts, reviewSubmissionAttempts] at reviewed
  | cons turn later =>
      refine .settled turn.fresh handoff.metrics (reviewTurnsRun_of_attempts reviewed) ?_ rfl
      have first : ∃ others, reviewTurnsRun reviewSubmissionAttempts (turn :: later) =
          turn :: others := by
        simp only [reviewSubmissionAttempts, reviewTurnsRun]
        split_ifs
        · exact ⟨_, rfl⟩
        · exact ⟨[], rfl⟩
      obtain ⟨others, first⟩ := first
      simp only [StepOutcome.retried, StepOutcome.runIds, first, List.map_cons, attemptRunIds,
        List.tail_cons, named, attempt]

/-- Every step that succeeds changes the record in one of these ways. -/
theorem step_recorded {outcome : StepOutcome} (h : step config state outcome = .ok result) :
    Recorded config state outcome result.state := by
  unfold step at h
  split at h
  case h_1 phase => exact stepPlan_recorded phase h
  case h_2 phase => exact stepResearch_recorded phase h
  case h_3 turn phase =>
      have attempt : stageAttempt state .security "security" turn.fresh =
          attemptFrom (resumedStage state) state.phase (stageName state) turn.fresh := by
        simp only [stageAttempt_eq, resumedStage, phase, stageName, WorkflowPhase.text]
      unfold stepSecurity at h
      split_ifs at h
      obtain rfl := Except.ok.inj h
      rw [attempt]
      exact .settled turn.fresh turn.metrics rfl
        (by simp only [StepOutcome.runIds, StepOutcome.retried, attemptRunIds, attempt]) rfl
  case h_4 turn phase =>
      have attempt : stageAttempt state .code ("code:" ++ toString state.round) turn.fresh =
          attemptFrom (resumedStage state) state.phase (stageName state) turn.fresh := by
        simp only [stageAttempt_eq, resumedStage, phase, stageName]
      unfold stepCode at h
      obtain rfl := Except.ok.inj h
      rw [attempt]
      exact .settled turn.fresh turn.metrics rfl
        (by simp only [StepOutcome.runIds, StepOutcome.retried, attemptRunIds, attempt]) rfl
  case h_5 phase => exact stepGates_recorded phase h
  case h_6 phase => exact stepReview_recorded phase h
  all_goals cases h

/-- A measure of the record that each settled turn adds to is, after a step, with what was taken
out or left out, the one before it with what was brought and what ran. -/
theorem step_adds {measure : List PipelineStageMetrics → Usage} {outcome : StepOutcome}
    (once : ∀ (before : WorkflowState) (resumed : Option ActiveWorkflowStage) (fresh : String),
      ∀ metrics ∈ outcome.turns config, (∀ active ∈ resumed, active.step = stageName state) →
        measure (settledStage before (attemptFrom resumed state.phase (stageName state) fresh).1
            (attemptFrom resumed state.phase (stageName state) fresh).2 metrics).stageMetrics +
          replacedUsage (stageName state) before.stageMetrics resumed =
        measure before.stageMetrics + (broughtUsage resumed + metrics.usage))
    (h : step config state outcome = .ok result) :
    measure result.state.stageMetrics +
        (replacedUsage (stageName state) state.stageMetrics (resumedStage state) +
          totalUsage (outcome.unrecorded config)) =
      measure state.stageMetrics +
        (broughtUsage (resumedStage state) + totalUsage (outcome.turns config)) := by
  cases step_recorded h with
  | @planned turns evidence _ phase ran record =>
      have named : stageName state = "plan" := by simp [stageName, phase, WorkflowPhase.text]
      obtain ⟨turn, later, isRun⟩ := List.exists_cons_of_ne_nil ran
      rw [phase, named] at once
      have total : measure (settleTurns (attemptFrom (resumedStage state) .plan "plan") state
            (turn :: later)).stageMetrics +
            replacedUsage "plan" state.stageMetrics (resumedStage state) =
          measure state.stageMetrics + (broughtUsage (resumedStage state) +
            totalUsage ((turn :: later).map (·.metrics))) :=
        settleTurns_adds (fun _ resumes => named ▸ resumedStage_step resumes)
          fun before resumed ran member own => once before resumed ran.fresh ran.metrics
            (by rw [StepOutcome.turns, isRun]; exact List.mem_map_of_mem member) own
      rw [isRun] at record
      have metrics := congrArg Prod.fst record
      simp only [WorkflowState.record] at metrics
      simpa [metrics, named, StepOutcome.turns, StepOutcome.unrecorded, isRun] using total
  | settled fresh metrics turns ids record =>
      have total := once state (resumedStage state) fresh metrics (by simp [← turns])
        fun _ => resumedStage_step
      have metrics := congrArg Prod.fst record
      simp only [WorkflowState.record] at metrics
      rw [metrics, ← turns, totalUsage_append, ← add_assoc, total, totalUsage_cons,
        totalUsage_nil, add_zero, add_assoc, add_assoc, add_comm (totalUsage _)]
  | appended ids afresh all _ _ record =>
      have metrics := congrArg Prod.fst record
      simp only [WorkflowState.record] at metrics
      have appended (recorded : WorkflowState) (turns : List PipelineStageMetrics)
          (ran : ∀ metrics ∈ turns, metrics ∈ outcome.turns config) :
          measure (recorded.stageMetrics ++ turns) =
            measure recorded.stageMetrics + totalUsage turns := by
        induction turns generalizing recorded with
        | nil => simp
        | cons first later ih =>
            have all : recorded.stageMetrics.filter (fun _ => true) = recorded.stageMetrics := by
              simp
            have one := once recorded none "" first (ran first (.head _)) (by simp)
            have rest := ih { recorded with stageMetrics := recorded.stageMetrics ++ [first] }
              fun metrics later => ran metrics (.tail _ later)
            simp only [attemptFrom, freshAttempt, settledStage, Bool.false_and, Bool.not_false,
              all, replacedUsage_none, broughtUsage_none, add_zero, zero_add] at one
            rw [totalUsage_cons, ← add_assoc, ← one]
            simpa using rest
      simpa [metrics, afresh, all] using appended state (outcome.turns config) fun _ h => h

/-- A step balances its record. -/
theorem balances_step {outcome : StepOutcome} (h : step config state outcome = .ok result)
    (turned : ∀ metric ∈ outcome.turns config, metric.stage = stageName state) :
    Balances config state outcome result.state.stageMetrics :=
  step_adds (fun before _ fresh metrics member own =>
    stageTotal_settledStage before state.phase fresh own (turned metrics member)) h

end Steps

end AdCoder.Orchestration
