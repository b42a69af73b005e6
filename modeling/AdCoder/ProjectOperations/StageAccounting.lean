import AdCoder.Orchestration.StageUsage
import AdCoder.ProjectOperations.CoordinatorMoves
import Mathlib.Tactic.Abel

/-!
# Accounting over pauses

A stage that is stopped by a limit, or fails, leaves the metrics of the
interrupted turn behind. Each further limit replaces the attempt that will be
resumed, and what the completed stage merges in is that attempt alone.
-/

namespace AdCoder.ProjectOperations

open Foundation Foundation.Section Orchestration

/-! ## Interrupted attempts -/

/-- The ledger records of one turn, added up. -/
structure LedgerUsage where
  freshInput : Nat
  cachedInput : Nat
  output : Nat
  reasoning : Option Nat
  costUsd : Rat

/-- Why a turn did not complete. -/
inductive Interruption where
  | stageLimit (error : StageLimitError)
  | stageFailure (source : SourceError)

/-- A call of the session whose last turn was interrupted, with the turns that completed before. -/
structure PausedAttempt where
  earlier : List PipelineStageMetrics
  runId : String
  usage : LedgerUsage
  cause : Interruption

namespace PausedAttempt

/-- The metrics that `runTurn` gives to an interrupted turn. -/
def metrics (stage : String) (attempt : PausedAttempt) : PipelineStageMetrics where
  stage := stage
  status := some .paused
  durationMs := match attempt.cause with
    | .stageLimit error => some ((error.snapshot.map (·.elapsedMs)).getD 0)
    | .stageFailure _ => some 0
  input := attempt.usage.freshInput + attempt.usage.cachedInput
  cachedInput := attempt.usage.cachedInput
  freshInput := attempt.usage.freshInput
  output := attempt.usage.output
  reasoning := attempt.usage.reasoning
  costUsd := some attempt.usage.costUsd
  chargedUsd := none

/-- What the session throws. Research conceals how its turn failed. -/
def failure (attempt : PausedAttempt) (state : WorkflowState) : SessionFailure :=
  let turn := ⟨attempt.runId, attempt.metrics (stageName state)⟩
  if state.phase = .research then
    .orchestration ⟨.requirementsUnresolved,
      firstChars 32 ((state.researchIntent.map (·.queryHash)).getD ""),
      "research provider response was unavailable or invalid; inspect the provider and retry"⟩
  else match attempt.cause with
    | .stageLimit error => .stageLimit error (some turn)
    | .stageFailure source => .stageFailure turn source

/-- The turns that an attempt ran. -/
def turns (stage : String) (attempt : PausedAttempt) : List PipelineStageMetrics :=
  attempt.earlier ++ [attempt.metrics stage]

/-- The attempt as it will be resumed, if a limit stopped it. -/
def active? (state : WorkflowState) (attempt : PausedAttempt) : Option ActiveWorkflowStage :=
  match attempt.cause with
  | .stageLimit error => some ⟨state.phase, stageName state, attempt.runId,
      some (attempt.metrics (stageName state)), error.snapshot⟩
  | .stageFailure _ => none

def isLimited (attempt : PausedAttempt) : Bool :=
  match attempt.cause with
  | .stageLimit _ => true
  | .stageFailure _ => false

end PausedAttempt

/-- The last attempt that a limit stopped, and the others. -/
def lastLimited : List PausedAttempt → Option (PausedAttempt × List PausedAttempt)
  | [] => none
  | attempt :: later =>
      match lastLimited later with
      | some (last, others) => some (last, attempt :: others)
      | none => if attempt.isLimited then some (attempt, later) else none

/-! ## Histories of a step -/

/-- A process that holds a checkpoint runs a section to its end. -/
def Runs (c : RunCheckpoint) (body : CoordinatorSection Progress) (result : Progress)
    (d : RunCheckpoint) : Prop :=
  ∃ m : Memory RunCheckpoint, m.held.value = c ∧ (body.runOn m).1 = .ok result ∧
    (body.runOn m).2.held.value = d

/-- An attempt of the step is stopped by a stage limit or by a failure of its stage. -/
def Interrupted (c : RunCheckpoint) (attempt : PausedAttempt) (d : RunCheckpoint) : Prop :=
  ∃ host world captured now returned later,
    Runs c (prepareStep host world) (.awaits (.step captured)) now ∧
    (roleByPhase captured.workflowState.phase).isSome = true ∧
    returned.outcome = .error (attempt.failure captured.workflowState) ∧
    later.interrupted = false ∧
    Runs now (finishStep host captured returned later) (.stepped none) d

/-- The run is resumed, or a step of it ends before the session is awaited. -/
inductive Continued (c d : RunCheckpoint) : Prop
  | research {source : ResolutionSource} (h : Runs c (resumeResearch source) .resolved d)
  | stage {host : CoordinatorHost} (h : Runs c (resumeStage host) .resolved d)
  | held {host : CoordinatorHost} {world : CoordinatorWorld} {result : Option StepResult}
      (h : Runs c (prepareStep host world) (.stepped result) d)

/-- The attempts of one step, from its first one on. -/
inductive StageHistory (c : RunCheckpoint) : List PausedAttempt → RunCheckpoint → Prop
  | start (fresh : resumedStage c.workflowState = none) : StageHistory c [] c
  | pauses {attempts : List PausedAttempt} {attempt : PausedAttempt} {d e : RunCheckpoint}
      (before : StageHistory c attempts d) (interrupted : Interrupted d attempt e) :
      StageHistory c (attempts ++ [attempt]) e
  | goesOn {attempts : List PausedAttempt} {d e : RunCheckpoint}
      (before : StageHistory c attempts d) (continued : Continued d e) : StageHistory c attempts e

/-- The step succeeds. Its turns are accounted under its name. -/
def Completed (config : PipelineConfig) (c : RunCheckpoint) (outcome : StepOutcome)
    (result : StepResult) : Prop :=
  ∃ host world captured now returned later d, host.config = config ∧
    Runs c (prepareStep host world) (.awaits (.step captured)) now ∧
    returned.outcome = .ok outcome ∧
    (∀ metric ∈ outcome.turns config, metric.stage = stageName captured.workflowState) ∧
    Runs now (finishStep host captured returned later) (.stepped (some result)) d

/-- The turns that the record of a completed step leaves out: those before the last one of an
attempt, in research all the interrupted ones, and in another phase, once a limit stopped an
attempt, what is recorded as paused beside the last such attempt. -/
def leftOut (config : PipelineConfig) (state : WorkflowState) (attempts : List PausedAttempt)
    (outcome : StepOutcome) : List PipelineStageMetrics :=
  let stage := stageName state
  attempts.flatMap (·.earlier) ++ outcome.unrecorded config ++
    if state.phase = .research then attempts.map (·.metrics stage)
    else match lastLimited attempts with
      | none => []
      | some (_, others) => pausedEntries stage state.stageMetrics ++ others.map (·.metrics stage)

/-! ## The last limited attempt -/

theorem lastLimited_perm {attempts others : List PausedAttempt} {last : PausedAttempt}
    (h : lastLimited attempts = some (last, others)) : attempts.Perm (last :: others) := by
  induction attempts generalizing others with
  | nil => cases h
  | cons attempt later ih =>
      rw [lastLimited] at h
      split at h
      · next found =>
          cases h
          exact ((ih found).cons attempt).trans (.swap ..)
      · split_ifs at h
        cases h
        exact .refl _

theorem lastLimited_append {attempts : List PausedAttempt} {attempt : PausedAttempt} :
    lastLimited (attempts ++ [attempt]) =
      if attempt.isLimited then some (attempt, attempts)
      else (lastLimited attempts).map fun found => (found.1, found.2 ++ [attempt]) := by
  induction attempts with
  | nil =>
      cases limited : attempt.isLimited <;> simp [lastLimited, limited]
  | cons first later ih =>
      rw [List.cons_append, lastLimited, ih]
      by_cases limited : attempt.isLimited = true
      · simp [limited]
      · cases found : lastLimited later with
        | some last => simp [lastLimited, limited, found]
        | none => by_cases here : first.isLimited = true <;> simp [lastLimited, limited, found, here]

/-- The last limited attempt is resumed as its own metrics. -/
theorem active?_of_lastLimited (state : WorkflowState) {attempts others : List PausedAttempt}
    {last : PausedAttempt} (h : lastLimited attempts = some (last, others)) :
    ∃ active, last.active? state = some active ∧
      (decide (active.phase = state.phase) && decide (active.step = stageName state)) = true ∧
      active.metrics = some (last.metrics (stageName state)) := by
  induction attempts generalizing others with
  | nil => cases h
  | cons attempt later ih =>
      rw [lastLimited] at h
      split at h
      · next found =>
          cases h
          exact ih found
      · split_ifs at h with limited
        cases h
        rw [PausedAttempt.isLimited] at limited
        rw [PausedAttempt.active?]
        cases cause : last.cause with
        | stageLimit error => exact ⟨_, rfl, by simp, rfl⟩
        | stageFailure source => simp [cause] at limited

/-! ## Accounts along a history -/

/-- The accounts of a state after attempts that were interrupted. -/
structure Accounted (state : WorkflowState) (attempts : List PausedAttempt)
    (now : WorkflowState) : Prop where
  role : attempts ≠ [] → (roleByPhase state.phase).isSome = true
  phase : now.phase = state.phase
  round : now.round = state.round
  metrics : now.stageMetrics = state.stageMetrics ++
    if state.phase = .research then [] else attempts.map (·.metrics (stageName state))
  active : state.phase ≠ .research → now.activeStage =
    ((lastLimited attempts).bind fun found => found.1.active? state).orElse fun _ =>
      state.activeStage

theorem stageName_congr {state other : WorkflowState} (phase : other.phase = state.phase)
    (round : other.round = state.round) : stageName other = stageName state := by
  rw [stageName, stageName, phase, round]

section Accounts

variable {state now next : WorkflowState} {attempts : List PausedAttempt} {c d : RunCheckpoint}

/-- The accounts that no write outside a step changes. -/
def SameAccounts (state other : WorkflowState) : Prop :=
  other.phase = state.phase ∧ other.round = state.round ∧
    other.stageMetrics = state.stageMetrics ∧ other.activeStage = state.activeStage

theorem Accounted.keeps (h : Accounted state attempts now) (same : SameAccounts now next) :
    Accounted state attempts next := by
  obtain ⟨phase, round, metrics, active⟩ := same
  exact ⟨h.role, phase.trans h.phase, round.trans h.round, metrics.trans h.metrics,
    fun other => active.trans (h.active other)⟩

/-- A section whose writes leave the accounts alone. -/
theorem sameAccounts_runs {W : RunCheckpoint → RunCheckpoint → Prop}
    {body : CoordinatorSection Progress} {Q : Progress → RunCheckpoint → Prop}
    {F : CoordinatorError → RunCheckpoint → Prop} {progress : Progress}
    (meets : Meets W Rewords (· = c) body Q F)
    (keeps : ∀ s t, W s t → SameAccounts s.workflowState t.workflowState)
    (h : Runs c body progress d) : SameAccounts c.workflowState d.workflowState := by
  obtain ⟨m, rfl, -, rfl⟩ := h
  refine (meets m rfl).1.held (S := fun t => SameAccounts m.held.value.workflowState
    t.workflowState) ?_ ?_ ⟨rfl, rfl, rfl, rfl⟩
  · rintro s t ⟨phase, round, metrics, active⟩ written
    obtain ⟨phase', round', metrics', active'⟩ := keeps s t written
    exact ⟨phase'.trans phase, round'.trans round, metrics'.trans metrics, active'.trans active⟩
  · rintro s t same ⟨current, reworded, -, -, -, -, rfl⟩
    exact same

theorem Prepares.sameAccounts {c d : RunCheckpoint} (h : Prepares c d) :
    SameAccounts c.workflowState d.workflowState := by
  cases h <;> exact ⟨rfl, rfl, rfl, rfl⟩

theorem Continued.sameAccounts (h : Continued c d) :
    SameAccounts c.workflowState d.workflowState := by
  cases h with
  | research h =>
      refine sameAccounts_runs (c := c) (meets_resumeResearch (s := c)) ?_ h
      rintro s t ⟨-, rfl⟩
      exact ⟨rfl, rfl, rfl, rfl⟩
  | stage h =>
      refine sameAccounts_runs (c := c) (meets_resumeStage (s := c)) ?_ h
      rintro s t ⟨-, rfl⟩
      exact ⟨rfl, rfl, rfl, rfl⟩
  | held h => exact sameAccounts_runs prepares_prepareStep (fun _ _ => Prepares.sameAccounts) h

/-- A failed attempt adds its metrics to the accounts, except in research. -/
theorem Accounted.pauses {held captured next : RunCheckpoint} {attempt : PausedAttempt}
    (h : Accounted state attempts captured.workflowState)
    (role : (roleByPhase captured.workflowState.phase).isSome = true)
    (failed : failedStep held captured (attempt.failure captured.workflowState) = some next) :
    Accounted state (attempts ++ [attempt]) next.workflowState := by
  have named := stageName_congr h.phase h.round
  have played : attempts ++ [attempt] ≠ [] → (roleByPhase state.phase).isSome = true :=
    fun _ => h.phase ▸ role
  by_cases research : captured.workflowState.phase = .research
  · have left : next.workflowState = captured.workflowState := by
      simp only [PausedAttempt.failure, research, if_true, failedStep] at failed
      simp at failed
      rw [← failed]
    have same : state.phase = .research := h.phase ▸ research
    rw [left]
    refine ⟨played, h.phase, h.round, ?_, fun other => absurd same other⟩
    simpa [same] using h.metrics
  · have other : state.phase ≠ .research := h.phase ▸ research
    have resumable : resumablePhase captured.workflowState.phase = true := by
      cases phase : captured.workflowState.phase <;> simp_all [roleByPhase, resumablePhase]
    have recorded : captured.workflowState.stageMetrics ++
        [attempt.metrics (stageName captured.workflowState)] = state.stageMetrics ++
          (attempts ++ [attempt]).map (·.metrics (stageName state)) := by
      rw [h.metrics, named, if_neg other, List.map_append, List.append_assoc]
      rfl
    cases cause : attempt.cause with
    | stageLimit error =>
        simp only [PausedAttempt.failure, research, cause, if_false, failedStep, limitedState,
          resumable, if_true, Option.some.injEq] at failed
        obtain rfl := failed
        refine ⟨played, h.phase, h.round, ?_, fun _ => ?_⟩
        · rw [if_neg other]
          exact recorded
        · have limited : attempt.isLimited = true := by simp [PausedAttempt.isLimited, cause]
          simp [lastLimited_append, limited, PausedAttempt.active?, cause, ← named, h.phase,
            PausedAttempt.metrics]
    | stageFailure source =>
        simp only [PausedAttempt.failure, research, cause, if_false, failedStep,
          Option.some.injEq] at failed
        obtain rfl := failed
        have unlimited : attempt.isLimited = false := by simp [PausedAttempt.isLimited, cause]
        have kept (phase : WorkflowPhase) (state : WorkflowState)
            (cause : Option PipelinePauseCause) :
            SameAccounts state (recordCause state phase cause) := by
          cases cause <;> exact ⟨rfl, rfl, rfl, rfl⟩
        have stopped : Accounted state (attempts ++ [attempt]) (failedState captured.workflowState
            ⟨attempt.runId, attempt.metrics (stageName captured.workflowState)⟩) := by
          refine ⟨played, h.phase, h.round, ?_, fun _ => ?_⟩
          · rw [if_neg other]
            exact recorded
          · change captured.workflowState.activeStage = _
            rw [h.active other, lastLimited_append, unlimited]
            cases lastLimited attempts <;> rfl
        exact stopped.keeps (kept _ _ _)

end Accounts

section Histories

variable {host : CoordinatorHost} {world : CoordinatorWorld} {c captured d now : RunCheckpoint}
  {returned : SessionReturn} {attempts : List PausedAttempt}

/-- The session is awaited with the checkpoint that is held, and the accounts are as before. -/
theorem runs_awaits (h : Runs c (prepareStep host world) (.awaits (.step captured)) now) :
    captured = now ∧ SameAccounts c.workflowState now.workflowState := by
  refine ⟨?_, sameAccounts_runs prepares_prepareStep (fun _ _ => Prepares.sameAccounts) h⟩
  obtain ⟨m, rfl, awaits, rfl⟩ := h
  have waits := ((prepares_prepareStep m rfl).2.1 _ awaits).1
  generalize ((prepareStep host world).runOn m).2.held.value = now at waits
  cases waits
  rfl

/-- A section that saves and returns holds what it saved. -/
theorem meets_saved {value : RunCheckpoint} {progress : Progress} :
    Meets (fun _ _ => True) Rewords (fun _ => True)
      (do saveCheckpoint value; return progress : CoordinatorSection Progress)
      (fun result d => result = progress ∧ d = value) fun _ _ => True := by
  refine (Meets.saves (fun _ _ => trivial) (fun _ _ => trivial) fun _ _ => trivial).bind
    fun _ => .returns ?_
  rintro _ rfl
  exact ⟨rfl, rfl⟩

theorem runs_failed {failure : SessionFailure} {progress : Progress}
    (failed : returned.outcome = .error failure) (uninterrupted : world.interrupted = false)
    (h : Runs now (finishStep host captured returned world) progress d) :
    failedStep now captured failure = some d := by
  obtain ⟨m, rfl, finished, rfl⟩ := h
  have thrown : returned.settle (Orchestration.step host.config captured.workflowState) =
      .error failure := by
    rw [SessionReturn.settle, failed]
  rw [finishStep, thrown] at finished ⊢
  dsimp only at finished ⊢
  rw [runOn_read, if_neg (by simp [uninterrupted])] at finished ⊢
  cases made : failedStep m.held.value captured failure with
  | none =>
      rw [made] at finished
      cases finished
  | some next =>
      rw [made] at finished
      exact congrArg some ((meets_saved m trivial).2.1 _ finished).2.symm

/-- The accounts along a history. -/
theorem StageHistory.accounted (h : StageHistory c attempts d) :
    Accounted c.workflowState attempts d.workflowState := by
  induction h with
  | start fresh => exact ⟨absurd rfl, rfl, rfl, by simp, fun _ => rfl⟩
  | pauses before interrupted ih =>
      obtain ⟨host, world, captured, now, returned, later, awaits, role, failed, on, finished⟩ :=
        interrupted
      obtain ⟨rfl, same⟩ := runs_awaits awaits
      exact (ih.keeps same).pauses role (runs_failed failed on finished)
  | goesOn before continued ih => exact ih.keeps continued.sameAccounts

theorem StageHistory.fresh (h : StageHistory c attempts d) :
    resumedStage c.workflowState = none := by
  induction h with
  | start fresh => exact fresh
  | pauses _ _ ih => exact ih
  | goesOn _ _ ih => exact ih

/-- A step that returns a result was stepped on what the session came back with. -/
theorem runs_completed {outcome : StepOutcome} {result : StepResult}
    (completed : returned.outcome = .ok outcome)
    (h : Runs now (finishStep host captured returned world) (.stepped (some result)) d) :
    Orchestration.step host.config captured.workflowState outcome = .ok result := by
  obtain ⟨m, rfl, finished, -⟩ := h
  have settled : returned.settle (Orchestration.step host.config captured.workflowState) =
      (Orchestration.step host.config captured.workflowState outcome).mapError .ofStepError := by
    rw [SessionReturn.settle, completed]
  cases stepped : Orchestration.step host.config captured.workflowState outcome with
  | error error =>
      rw [finishStep, settled, stepped] at finished
      dsimp only [Except.mapError] at finished
      rw [runOn_read] at finished
      split_ifs at finished
      · exact absurd ((meets_saved m trivial).2.1 _ finished).1 (by simp)
      · split at finished
        · cases finished
        · exact absurd ((meets_saved m trivial).2.1 _ finished).1 (by simp)
  | ok made =>
      rw [finishStep, settled, stepped] at finished
      simp only [Except.mapError] at finished
      cases aggregated : host.consolidateFollowUps (captured.followUps ++ returned.followUps) with
      | error error =>
          rw [aggregated] at finished
          cases finished
      | ok followUps =>
          rw [aggregated] at finished
          have returned := ((meets_saved m trivial).2.1 _ finished).1
          simpa using returned.symm

end Histories

/-! ## The balance of a step -/

section Balance

variable {config : PipelineConfig} {state now : WorkflowState} {attempts : List PausedAttempt}
  {outcome : StepOutcome} {after : List PipelineStageMetrics}

theorem totalUsage_turns (stage : String) : totalUsage (attempts.flatMap (·.turns stage)) =
    totalUsage (attempts.flatMap (·.earlier)) + totalUsage (attempts.map (·.metrics stage)) := by
  induction attempts with
  | nil => simp
  | cons attempt later ih =>
      rw [List.flatMap_cons, List.flatMap_cons, List.map_cons, totalUsage_append,
        totalUsage_append, totalUsage_cons, ih, PausedAttempt.turns, totalUsage_append,
        totalUsage_cons, totalUsage_nil, add_zero]
      exact add_add_add_comm ..

theorem resumedStage_of_resumable (h : resumablePhase state.phase = true) :
    resumedStage state = state.activeStage.filter fun active =>
      active.phase = state.phase && active.step = stageName state := by
  rw [resumedStage]
  cases phase : state.phase <;> simp_all [resumablePhase]

theorem resumedStage_of_not_resumable (h : resumablePhase state.phase = false) :
    resumedStage state = none := by
  rw [resumedStage]
  cases phase : state.phase <;> simp_all [resumablePhase]

/-- Metrics of interrupted attempts are recorded as paused, under the name of the step. -/
theorem pausedEntries_attempts (stage : String) :
    pausedEntries stage (attempts.map (·.metrics stage)) = attempts.map (·.metrics stage) := by
  refine pausedEntries_of_paused fun metric member => ?_
  obtain ⟨attempt, -, rfl⟩ := List.mem_map.mp member
  exact ⟨rfl, rfl⟩

theorem stageTotal_attempts (stage : String) :
    stageTotal stage (attempts.map (·.metrics stage)) =
      totalUsage (attempts.map (·.metrics stage)) := by
  refine stageTotal_of_stage fun metric member => ?_
  obtain ⟨attempt, -, rfl⟩ := List.mem_map.mp member
  rfl

/-- The record of a completed step and the turns that it leaves out make up the record before the
step and all its turns. -/
theorem Accounted.balances (h : Accounted state attempts now) (fresh : resumedStage state = none)
    (balances : Balances config now outcome after) :
    stageTotal (stageName state) after + totalUsage (leftOut config state attempts outcome) =
      stageTotal (stageName state) state.stageMetrics +
        (totalUsage (attempts.flatMap (·.turns (stageName state))) +
          totalUsage (outcome.turns config)) := by
  have named := stageName_congr h.phase h.round
  rw [Balances, named, h.metrics, stageTotal_append] at balances
  rw [leftOut, totalUsage_turns, totalUsage_append, totalUsage_append]
  generalize totalUsage (attempts.flatMap (·.earlier)) = earlier
  generalize totalUsage (outcome.unrecorded config) = unrecorded at balances ⊢
  generalize totalUsage (outcome.turns config) = turns at balances ⊢
  generalize stageTotal (stageName state) after = recorded at balances ⊢
  cases resumable : resumablePhase state.phase with
  | false =>
      rw [resumedStage_of_not_resumable (h.phase ▸ resumable), broughtUsage_none,
        replacedUsage_none, zero_add, zero_add] at balances
      by_cases research : state.phase = .research
      · rw [if_pos research, stageTotal_nil, add_zero] at balances
        rw [if_pos research]
        calc recorded + (earlier + unrecorded + totalUsage _)
            = recorded + unrecorded + (earlier + totalUsage _) := by abel
          _ = _ := by
              rw [balances]
              abel
      · have none : attempts = [] := by
          by_contra some
          have role := h.role some
          cases phase : state.phase <;> simp_all [resumablePhase, roleByPhase]
        subst none
        rw [if_neg research, List.map_nil, stageTotal_nil, add_zero] at balances
        rw [if_neg research, lastLimited, List.map_nil, totalUsage_nil, add_zero, add_zero]
        calc recorded + (earlier + unrecorded) = recorded + unrecorded + earlier := by abel
          _ = _ := by
              rw [balances]
              abel
  | true =>
      have other : state.phase ≠ .research := by
        rintro research
        simp [research, resumablePhase] at resumable
      rw [resumedStage_of_resumable resumable] at fresh
      rw [if_neg other, stageTotal_attempts, resumedStage_of_resumable (h.phase ▸ resumable),
        h.active other, h.phase, named] at balances
      rw [if_neg other]
      cases limited : lastLimited attempts with
      | none =>
          simp only [limited, Option.bind_none, Option.orElse_none, fresh, broughtUsage_none,
            replacedUsage_none, zero_add] at balances
          rw [totalUsage_nil, add_zero]
          calc recorded + (earlier + unrecorded) = recorded + unrecorded + earlier := by abel
            _ = _ := by
                rw [balances]
                abel
      | some found =>
          obtain ⟨last, others⟩ := found
          obtain ⟨active, resumed, here, brought⟩ := active?_of_lastLimited state limited
          have total : totalUsage (attempts.map (·.metrics (stageName state))) =
              (last.metrics (stageName state)).usage +
                totalUsage (others.map (·.metrics (stageName state))) :=
            (totalUsage_perm ((lastLimited_perm limited).map _)).trans (totalUsage_cons _)
          simp only [limited, Option.bind_some, resumed, Option.orElse_some, Option.filter_some, here,
            if_true, broughtUsage, brought, replacedUsage, Option.elim_some, pausedEntries_append,
            pausedEntries_attempts, totalUsage_append, total] at balances
          rw [total, totalUsage_append]
          generalize (last.metrics (stageName state)).usage = resumedUsage at balances ⊢
          generalize totalUsage (others.map _) = besides at balances ⊢
          generalize totalUsage (pausedEntries _ _) = old at balances ⊢
          refine add_right_cancel (b := resumedUsage) ?_
          calc recorded + (earlier + unrecorded + (old + besides)) + resumedUsage
              = recorded + (old + (resumedUsage + besides) + unrecorded) + earlier := by abel
            _ = _ := by
                rw [balances]
                abel

/-- The record of the step gained the usage of all its turns, those of interrupted attempts too. -/
def RecordsAll (config : PipelineConfig) (state : WorkflowState) (attempts : List PausedAttempt)
    (outcome : StepOutcome) (after : List PipelineStageMetrics) : Prop :=
  stageTotal (stageName state) after = stageTotal (stageName state) state.stageMetrics +
    (totalUsage (attempts.flatMap (·.turns (stageName state))) +
      totalUsage (outcome.turns config))

instance : Decidable (RecordsAll config state attempts outcome after) := by
  unfold RecordsAll
  infer_instance

@[simp] theorem applyTransition_stageMetrics (chosen : AvailableTransition) :
    (applyTransition state chosen).stageMetrics = state.stageMetrics := by
  unfold applyTransition
  split_ifs <;> rfl

end Balance

section Scripts

/-- A process that holds a checkpoint, and the storage that admits its writes. -/
def holding (c : RunCheckpoint) : Memory RunCheckpoint := ⟨some ⟨1, c⟩, ⟨1, c⟩, 9⟩

def heldAfter (c : RunCheckpoint) (body : CoordinatorSection Progress) : RunCheckpoint :=
  (body.runOn (holding c)).2.held.value

theorem runs_heldAfter {c : RunCheckpoint} {body : CoordinatorSection Progress}
    {progress : Progress} (h : (body.runOn (holding c)).1 = .ok progress) :
    Runs c body progress (heldAfter c body) :=
  ⟨holding c, rfl, h, rfl⟩

/-- A coder turn that a cost limit stops after one dollar. -/
def costlyAttempt : PausedAttempt :=
  ⟨[], "a", ⟨10, 0, 5, none, 1⟩, .stageLimit ⟨.cost, 1, none⟩⟩

/-- The coder's turn that completes. -/
def costlyOutcome : StepOutcome :=
  .code ⟨"b", "", ⟨"code:1", none, none, 10, 0, 10, 5, none, some 1, none⟩⟩

def codingHost : CoordinatorHost := { gatedHost with config := coderReviewer }

def codingStart : RunCheckpoint := initialCheckpoint "r" codingHost ⟨none, false⟩

/-- The checkpoint after an attempt that a limit stops, and a resume. -/
def stoppedOnce (c : RunCheckpoint) : RunCheckpoint :=
  heldAfter c (finishStep codingHost c
    ⟨.error (costlyAttempt.failure c.workflowState), []⟩ quietWorld)

def resumedOnce (c : RunCheckpoint) : RunCheckpoint :=
  heldAfter (stoppedOnce c) (resumeStage codingHost)

theorem history_once : StageHistory codingStart [costlyAttempt] (resumedOnce codingStart) := by
  have stopped : Interrupted codingStart costlyAttempt (stoppedOnce codingStart) :=
    ⟨codingHost, quietWorld, codingStart, codingStart,
      ⟨.error (costlyAttempt.failure codingStart.workflowState), []⟩, quietWorld,
      runs_heldAfter rfl, rfl, rfl, rfl, runs_heldAfter rfl⟩
  exact ((StageHistory.start rfl).pauses stopped).goesOn (.stage (runs_heldAfter rfl))

theorem history_twice : StageHistory codingStart [costlyAttempt, costlyAttempt]
    (resumedOnce (resumedOnce codingStart)) := by
  have stopped : Interrupted (resumedOnce codingStart) costlyAttempt
      (stoppedOnce (resumedOnce codingStart)) :=
    ⟨codingHost, quietWorld, resumedOnce codingStart, resumedOnce codingStart,
      ⟨.error (costlyAttempt.failure (resumedOnce codingStart).workflowState), []⟩, quietWorld,
      runs_heldAfter rfl, rfl, rfl, rfl, runs_heldAfter rfl⟩
  exact (history_once.pauses stopped).goesOn (.stage (runs_heldAfter rfl))

/-- The last turn succeeds. -/
theorem completed_codingStart (c : RunCheckpoint) {result : StepResult}
    (awaits : ((prepareStep codingHost quietWorld).runOn (holding c)).1 = .ok (.awaits (.step c)))
    (held : heldAfter c (prepareStep codingHost quietWorld) = c)
    (named : stageName c.workflowState = "code:1")
    (finished : ((finishStep codingHost c ⟨.ok costlyOutcome, []⟩ quietWorld).runOn
      (holding c)).1 = .ok (.stepped (some result))) :
    Completed coderReviewer c costlyOutcome result := by
  refine ⟨codingHost, quietWorld, c, c, ⟨.ok costlyOutcome, []⟩, quietWorld, _, rfl,
    ⟨holding c, rfl, awaits, held⟩, rfl, ?_, runs_heldAfter finished⟩
  rw [named]
  decide

end Scripts

end AdCoder.ProjectOperations
