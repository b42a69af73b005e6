import AdCoder.Orchestration.SessionRuns
import AdCoder.Orchestration.StageUsage

/-!
# The accounting of one step

A step adds to the record what its turns used, and names their runs, when
nothing of what it resumes is lost and no reviewer was asked twice. The planner
settles each of its attempts; the reviewer settles the last one under the run
id of the first.
-/

namespace AdCoder.Orchestration

open Foundation

/-- What the step adds to the record is what its turns used, and their runs are named. -/
structure Accounted (config : PipelineConfig) (state : WorkflowState) (outcome : StepOutcome)
    (after : WorkflowState) : Prop where
  usage : totalUsage after.stageMetrics =
    totalUsage state.stageMetrics + totalUsage (outcome.turns config)
  runIds : ∀ id ∈ outcome.runIds config state, id ∈ after.runIds

/-- What resuming takes out of the record, with the reviewer's turns before its last one, is
what the resumed attempt brings, and each run of a repeated review has its name recorded. -/
structure Accountable (config : PipelineConfig) (state : WorkflowState)
    (outcome : StepOutcome) : Prop where
  usage : replacedUsage (stageName state) state.stageMetrics (resumedStage state) +
      totalUsage (outcome.unrecorded config) = broughtUsage (resumedStage state)
  runIds : ∀ id ∈ outcome.retried config state,
    id ∈ state.runIds ∨ id ∈ (outcome.runIds config state).head?

/-! ## Settling an attempt -/

section Settling

variable {state : WorkflowState} {metrics : PipelineStageMetrics}

/-- The record is its paused entries of a stage and the others. -/
theorem totalUsage_unpaused (stage : String) (recorded : List PipelineStageMetrics) :
    totalUsage (recorded.filter fun metric =>
        !(metric.stage == stage && metric.status == some .paused)) +
      totalUsage (pausedEntries stage recorded) = totalUsage recorded := by
  rw [add_comm, ← totalUsage_append]
  exact totalUsage_perm (List.filter_append_perm _ recorded)

/-- The record after an attempt was settled. -/
theorem totalUsage_settledStage (phase : WorkflowPhase) (fresh : String) {stage : String}
    {resumed : Option ActiveWorkflowStage} (own : ∀ active ∈ resumed, active.step = stage) :
    totalUsage (settledStage state (attemptFrom resumed phase stage fresh).1
        (attemptFrom resumed phase stage fresh).2 metrics).stageMetrics +
      replacedUsage stage state.stageMetrics resumed =
    totalUsage state.stageMetrics + (broughtUsage resumed + metrics.usage) := by
  cases resumed with
  | none =>
      have all : state.stageMetrics.filter (fun _ => true) = state.stageMetrics := by simp
      simp [attemptFrom, freshAttempt, settledStage, all]
  | some active =>
      have merged : ((active.metrics.map (mergeMetrics · metrics)).getD metrics).usage =
          broughtUsage (some active) + metrics.usage := by
        cases brought : active.metrics <;> simp [broughtUsage, brought, usage_mergeMetrics]
      calc _ = totalUsage (state.stageMetrics.filter fun metric =>
              !(metric.stage == stage && metric.status == some .paused)) +
              (broughtUsage (some active) + metrics.usage) +
            totalUsage (pausedEntries stage state.stageMetrics) := by
            simp only [attemptFrom, settledStage, own active rfl, Bool.true_and, if_true,
              totalUsage_append, totalUsage_cons, totalUsage_nil, add_zero, merged,
              replacedUsage, Option.elim_some]
        _ = _ := by rw [add_right_comm, totalUsage_unpaused]

/-- Settling names the run of its attempt and forgets no name. -/
@[simp] theorem mem_runIds_settledStage {attempt : ActiveWorkflowStage} {resume : Bool}
    {id : String} : id ∈ (settledStage state attempt resume metrics).runIds ↔
      id ∈ state.runIds ∨ id = attempt.runId := by
  simp only [settledStage]
  split_ifs with known
  · exact ⟨.inl, by rintro (old | rfl) <;> assumption⟩
  · simp

end Settling

/-! ## Steps -/

section Steps

variable {config : PipelineConfig} {state : WorkflowState} {result : StepResult}

/-- The settled turns have their runs named, beside those named before. -/
theorem mem_runIds_settleTurns {attemptOf : String → ActiveWorkflowStage × Bool}
    {turns : List PlanTurn} {id : String} : id ∈ (settleTurns attemptOf state turns).runIds ↔
      id ∈ state.runIds ∨ id ∈ attemptRunIds attemptOf (turns.map (·.fresh)) := by
  induction turns generalizing attemptOf state with
  | nil => simp [settleTurns, attemptRunIds]
  | cons turn later ih =>
      have fresh (ids : List String) :
          attemptRunIds (freshAttempt .plan "plan") ids = ids := by
        cases ids <;> rfl
      rw [settleTurns, ih, fresh, mem_runIds_settledStage]
      simp [attemptRunIds, or_assoc]

theorem totals_step {outcome : StepOutcome} (h : step config state outcome = .ok result) :
    totalUsage result.state.stageMetrics +
        (replacedUsage (stageName state) state.stageMetrics (resumedStage state) +
          totalUsage (outcome.unrecorded config)) =
      totalUsage state.stageMetrics +
        (broughtUsage (resumedStage state) + totalUsage (outcome.turns config)) :=
  step_adds (fun _ _ fresh _ _ own => totalUsage_settledStage state.phase fresh own) h

theorem runIds_step {outcome : StepOutcome} (h : step config state outcome = .ok result) :
    (∀ id ∈ outcome.runIds config state, id ∈ result.state.runIds) ↔
      ∀ id ∈ outcome.retried config state,
        id ∈ state.runIds ∨ id ∈ (outcome.runIds config state).head? := by
  cases step_recorded h with
  | @planned turns evidence _ phase ran record =>
      have attempts : stageAttempt state .plan "plan" =
          attemptFrom (resumedStage state) .plan "plan" := by
        funext fresh
        simp only [stageAttempt_eq, resumedStage, phase, stageName, WorkflowPhase.text]
      have ids := congrArg Prod.snd record
      simp only [WorkflowState.record] at ids
      simp +contextual [ids, mem_runIds_settleTurns, StepOutcome.runIds, StepOutcome.retried,
        attempts]
  | settled fresh metrics turns ran record =>
      have ids := congrArg Prod.snd record
      simp only [WorkflowState.record] at ids
      simp [ids, ran, eq_comm]
  | appended ids _ _ once named record =>
      have idsAfter := congrArg Prod.snd record
      simp only [WorkflowState.record] at idsAfter
      simp +contextual [idsAfter, once, named]

/-- A step accounts for all its turns exactly when nothing of them can be lost. -/
theorem step_accounted_iff {outcome : StepOutcome} (h : step config state outcome = .ok result) :
    Accounted config state outcome result.state ↔ Accountable config state outcome := by
  have totals := totals_step h
  rw [add_comm (broughtUsage _), ← add_assoc (totalUsage state.stageMetrics)] at totals
  constructor
  · rintro ⟨usage, runIds⟩
    rw [usage] at totals
    exact ⟨add_left_cancel totals, (runIds_step h).mp runIds⟩
  · rintro ⟨usage, runIds⟩
    rw [usage] at totals
    exact ⟨add_right_cancel totals, (runIds_step h).mpr runIds⟩

end Steps

/-! ## Runs -/

section Scripts

/-- A turn that used something. -/
def costlyTurn (stage fresh : String) : RoleTurn :=
  ⟨fresh, "", ⟨stage, none, none, 10, 0, 10, 5, none, some 1, none⟩⟩

/-- A review in its first round. -/
def reviewing : WorkflowState := { initialState coderReviewer with phase := .review }

def approves : Json := .obj [("status", .str "approved"), ("issues", .arr []),
  ("summary", .str "ok")]

theorem step_accounted_iff_review :
    ∃ result, step coderReviewer reviewing
        (.review [⟨costlyTurn "review:1" "a", [approves]⟩] none) = .ok result ∧
      Accounted coderReviewer reviewing
        (.review [⟨costlyTurn "review:1" "a", [approves]⟩] none) result.state := by
  refine ⟨_, rfl, (step_accounted_iff rfl).mpr ⟨?_, ?_⟩⟩ <;> decide +kernel

/-- The reviewer is asked twice: the first turn is not recorded, nor is the run of the second. -/
theorem step_accounted_refuted :
    ¬ ∀ (config : PipelineConfig) (state : WorkflowState) (outcome : StepOutcome)
      (result : StepResult), step config state outcome = .ok result →
        Accounted config state outcome result.state := by
  intro claimed
  have accounted := claimed coderReviewer reviewing (.review
    [⟨costlyTurn "review:1" "a", []⟩, ⟨costlyTurn "review:1" "b", [approves]⟩] none) _ rfl
  have cost := accounted.usage
  revert cost
  decide +kernel

end Scripts

end AdCoder.Orchestration
