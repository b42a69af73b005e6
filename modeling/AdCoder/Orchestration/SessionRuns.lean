import AdCoder.Foundation.Lists
import AdCoder.Orchestration.Session

/-!
# Runs of a workflow session

A driver commits one of the transitions that each step offers. Approval is
derived on the edge to `done` from the last recorded verdict, so a run is asked
which code its verdict reviewed.
-/

namespace AdCoder.Orchestration

open Foundation

/-- A step together with the transition that the driver committed after it. -/
structure Committed where
  phase : WorkflowPhase
  outcome : StepOutcome
  verdict : Option Verdict
  chosen : AvailableTransition

/-- Run the pending step and commit one of the transitions it offers. -/
def Commits (config : PipelineConfig) (state : WorkflowState) (made : Committed)
    (next : WorkflowState) : Prop :=
  ∃ result, step config state made.outcome = .ok result ∧ made.phase = result.phase ∧
    made.verdict = result.verdict ∧ made.chosen ∈ result.transitions ∧
    next = applyTransition result.state made.chosen

/-- An approved run ends with its last review, and no code was written since. -/
def ApprovalFresh (made : List Committed) (state : WorkflowState) : Prop :=
  state.done = true → state.approved = true →
    ∃ before review after, made = before ++ review :: after ∧ review.phase = .review ∧
      review.verdict = state.verdicts.getLast? ∧
      ∀ later ∈ after, later.phase ≠ .review ∧ later.phase ≠ .code

/-- The run is settled straight from a code or gates step, on an approval
recorded before it, with no red gate report. -/
def StaleStop (state : WorkflowState) (made : Committed) : Prop :=
  made.chosen.toPhase = .done ∧ (state.phase = .code ∨ state.phase = .gates) ∧
    state.lastApproved = true ∧ (reportAfter state made.outcome).any (!·.passed) = false

/-- The phases before the first code is written. -/
def WorkflowPhase.early : WorkflowPhase → Bool
  | .plan => true
  | .research => true
  | .security => true
  | _ => false

/-- No phase leads back to one before code, and only code leads to its gates. -/
theorem early_of_successor {p q : WorkflowPhase} (h : p ∈ successors q)
    (early : p.early = true) : q.early = true := by
  revert h early
  cases p <;> cases q <;> decide

theorem code_of_gates {q : WorkflowPhase} (h : .gates ∈ successors q) : q = .code := by
  revert h
  cases q <;> decide

section Commit

variable {config : PipelineConfig} {state next : WorkflowState} {made : Committed}

/-- The effect of a committed step on the course of the run. -/
structure CommitSpec (state : WorkflowState) (made : Committed) (next : WorkflowState) :
    Prop where
  phase : made.phase = state.phase
  offered : made.chosen.toPhase ∈ successors state.phase
  entered : next.phase = made.chosen.toPhase
  verdicts : next.verdicts = state.verdicts ++ made.verdict.toList
  reviewed : made.verdict.isSome = true ↔ state.phase = .review
  report : next.lastGateReport = reportAfter state made.outcome
  done : state.done = false → (next.done = true ↔ made.chosen.toPhase = .done)
  approved : state.approved = false → (next.approved = true ↔
    made.chosen.toPhase = .done ∧ next.lastApproved = true ∧ next.gatesRed = false)

theorem Commits.spec (h : Commits config state made next) : CommitSpec state made next := by
  obtain ⟨result, hstep, hphase, hverdict, hchosen, rfl⟩ := h
  obtain ⟨control, phase, reviewed, offers⟩ := step_spec hstep
  simp only [WorkflowState.control, Control.mk.injEq] at control
  obtain ⟨_, _, verdicts, report, done, approved⟩ := control
  refine ⟨hphase.trans phase, offers _ hchosen, by simp, ?_, ?_, by simpa using report, ?_, ?_⟩
  · simp [hverdict, verdicts]
  · rw [hverdict, reviewed]
  · intro running
    exact applyTransition_done (done.trans running)
  · intro running
    rw [applyTransition_approved (approved.trans running), applyTransition_gatesRed]
    simp [WorkflowState.lastApproved]

/-- A step that does not review leaves the verdicts alone. -/
theorem CommitSpec.verdicts_eq (h : CommitSpec state made next) (phase : state.phase ≠ .review) :
    next.verdicts = state.verdicts := by
  have unreviewed : made.verdict = none := by
    simpa using mt h.reviewed.mp phase
  simp [h.verdicts, unreviewed]

theorem CommitSpec.running (h : CommitSpec state made next) : state.phase ≠ .done := by
  intro done
  simpa [done, successors] using h.offered

end Commit

/-- What holds after the committed steps of every run. -/
structure RunInvariant (made : List Committed) (state : WorkflowState) : Prop where
  done : state.done = true ↔ state.phase = .done
  approved : state.approved = true → state.done = true
  early : state.phase.early = true → state.verdicts = []
  gated : state.phase = .gates → ∃ before last, made = before ++ [last] ∧ last.phase = .code

namespace RunInvariant

variable {config : PipelineConfig} {before : List Committed} {state next : WorkflowState}
  {made : Committed}

theorem start (config : PipelineConfig) : RunInvariant [] (initialState config) := by
  refine ⟨?_, by simp [initialState], by simp [initialState], ?_⟩
  · simp only [initialState, Bool.false_eq_true, false_iff]
    split_ifs <;> simp
  · simp only [initialState]
    split_ifs <;> simp

theorem notDone (inv : RunInvariant before state) (spec : CommitSpec state made next) :
    state.done = false ∧ state.approved = false := by
  have done : state.done = false := by
    simpa using mt inv.done.mp spec.running
  refine ⟨done, ?_⟩
  simpa [done] using mt inv.approved

theorem step (inv : RunInvariant before state) (h : Commits config state made next) :
    RunInvariant (before ++ [made]) next := by
  have spec := h.spec
  obtain ⟨running, unapproved⟩ := inv.notDone spec
  refine ⟨?_, ?_, ?_, ?_⟩
  · rw [spec.done running, spec.entered]
  · intro approved
    exact (spec.done running).mpr ((spec.approved unapproved).mp approved).1
  · intro early
    have source := early_of_successor spec.offered (spec.entered ▸ early)
    have unreviewed : state.phase ≠ .review := by
      rintro review
      simp [review, WorkflowPhase.early] at source
    rw [spec.verdicts_eq unreviewed, inv.early source]
  · intro gates
    have source : state.phase = .code := by
      apply code_of_gates
      rw [← gates, spec.entered]
      exact spec.offered
    exact ⟨before, made, rfl, spec.phase.trans source⟩

/-- A settling step that is not stale ends an approved run with its review. -/
theorem fresh_of_allowed (inv : RunInvariant before state) (h : Commits config state made next)
    (allowed : ¬ StaleStop state made) : ApprovalFresh (before ++ [made]) next := by
  intro done approved
  have spec := h.spec
  obtain ⟨running, unapproved⟩ := inv.notDone spec
  obtain ⟨settles, lastApproved, green⟩ := (spec.approved unapproved).mp approved
  by_cases review : state.phase = .review
  · obtain ⟨verdict, hverdict⟩ := Option.isSome_iff_exists.mp (spec.reviewed.mpr review)
    refine ⟨before, made, [], rfl, spec.phase.trans review, ?_, by simp⟩
    simp [spec.verdicts, hverdict]
  · have verdicts := spec.verdicts_eq review
    rw [WorkflowState.lastApproved, verdicts] at lastApproved
    cases hphase : state.phase with
    | review => exact absurd hphase review
    | done => exact absurd hphase spec.running
    | plan | research | security =>
        have early : state.phase.early = true := by simp [hphase, WorkflowPhase.early]
        simp [inv.early early] at lastApproved
    | code =>
        refine absurd ⟨settles, Or.inl hphase, lastApproved, ?_⟩ allowed
        rwa [WorkflowState.gatesRed, spec.report] at green
    | gates =>
        refine absurd ⟨settles, Or.inr hphase, lastApproved, ?_⟩ allowed
        rwa [WorkflowState.gatesRed, spec.report] at green

/-- A stale stop approves a run whose last review is older than its code. -/
theorem not_fresh_of_staleStop (inv : RunInvariant before state)
    (h : Commits config state made next) (stale : StaleStop state made) :
    ¬ ApprovalFresh (before ++ [made]) next := by
  intro fresh
  have spec := h.spec
  obtain ⟨running, unapproved⟩ := inv.notDone spec
  obtain ⟨settles, phase, lastApproved, green⟩ := stale
  have verdicts : next.verdicts = state.verdicts := by
    refine spec.verdicts_eq ?_
    rcases phase with h | h <;> simp [h]
  have approved : next.approved = true := by
    refine (spec.approved unapproved).mpr ⟨settles, ?_, ?_⟩
    · rwa [WorkflowState.lastApproved, verdicts]
    · rwa [WorkflowState.gatesRed, spec.report]
  obtain ⟨front, review, after, split, hreview, _, later⟩ :=
    fresh ((spec.done running).mpr settles) approved
  have apart : made ≠ review := by
    rintro rfl
    rcases phase with h | h <;> simp [spec.phase, h] at hreview
  obtain ⟨rest, rfl, hbefore⟩ := split_last split apart
  rcases phase with code | gates
  · exact (later made (by simp)).2 (spec.phase.trans code)
  · -- The gates ran on the code of the step just before them.
    obtain ⟨earlier, last, rfl, hlast⟩ := inv.gated gates
    have codeApart : last ≠ review := by
      rintro rfl
      simp [hlast] at hreview
    obtain ⟨inner, rfl, _⟩ := split_last hbefore codeApart
    exact (later last (by simp)).2 hlast

end RunInvariant

theorem runInvariant {config : PipelineConfig} {made : List Committed} {state : WorkflowState}
    (run : Run (Commits config) (initialState config) made state) : RunInvariant made state :=
  run.invariant_labels (fun inv h => inv.step h) (RunInvariant.start config)

theorem fresh_of_running {made : List Committed} {state : WorkflowState}
    (running : state.done = false) : ApprovalFresh made state := by
  intro done
  simp [running] at done

theorem fresh_of_guarded {config : PipelineConfig} {made : List Committed}
    {state : WorkflowState}
    (run : Run (Guarded (Commits config) fun s m => ¬ StaleStop s m) (initialState config) made
      state) : ApprovalFresh made state := by
  cases run with
  | refl => exact fresh_of_running rfl
  | tail run last => exact (runInvariant run.forget).fresh_of_allowed last.2 last.1

/-- A run's approval covers all code written in it exactly when no step settled
it straight from code or gates on an earlier approval. -/
theorem approval_fresh_iff {config : PipelineConfig} {made : List Committed}
    {state : WorkflowState} (run : Run (Commits config) (initialState config) made state) :
    ApprovalFresh made state ↔
      Run (Guarded (Commits config) fun s m => ¬ StaleStop s m) (initialState config) made
        state := by
  refine ⟨?_, fresh_of_guarded⟩
  induction run with
  | refl => exact fun _ => .refl _
  | tail run last ih =>
      intro fresh
      have inv := runInvariant run
      have before := ih (fresh_of_running (inv.notDone last.spec).1)
      exact before.tail ⟨fun stale => inv.not_fresh_of_staleStop last stale fresh, last⟩

/-! ## Scripted runs -/

/-- Follow a script of outcomes and chosen transitions, if each is offered. -/
def drive (config : PipelineConfig) :
    WorkflowState → List (StepOutcome × AvailableTransition) →
      Option (List Committed × WorkflowState)
  | state, [] => some ([], state)
  | state, (outcome, chosen) :: script =>
      match step config state outcome with
      | .error _ => none
      | .ok result =>
          if chosen ∈ result.transitions then
            (drive config (applyTransition result.state chosen) script).map fun r =>
              (⟨result.phase, outcome, result.verdict, chosen⟩ :: r.1, r.2)
          else none

theorem run_of_drive {config : PipelineConfig} {state final : WorkflowState}
    {script : List (StepOutcome × AvailableTransition)} {made : List Committed}
    (h : drive config state script = some (made, final)) :
    Run (Commits config) state made final := by
  induction script generalizing state made with
  | nil =>
      obtain ⟨rfl, rfl⟩ : [] = made ∧ state = final := by simpa [drive] using h
      exact .refl _
  | cons first script ih =>
      obtain ⟨outcome, chosen⟩ := first
      simp only [drive] at h
      split at h
      · cases h
      · next result hresult =>
          split_ifs at h with offered
          obtain ⟨⟨later, _⟩, hlater, heq⟩ := Option.map_eq_some_iff.mp h
          obtain ⟨rfl, rfl⟩ := Prod.mk.inj heq
          have first : Commits config state ⟨result.phase, outcome, result.verdict, chosen⟩
              (applyTransition result.state chosen) :=
            ⟨result, hresult, rfl, rfl, offered, rfl⟩
          exact (Run.single first).append (ih hlater)

/-- A coder and a reviewer, with no gates. -/
def coderReviewer : PipelineConfig where
  planner := false
  security := false
  researcher := false
  qualityGates := false
  onChangesRequested := .advance
  autoAdvance := true
  maxRounds := 2
  preComplexity := .medium
  plannerHandoffAttempts := 2
  maxRounds_pos := by decide
  handoff := Or.inr rfl

def quietTurn (fresh : String) : RoleTurn :=
  ⟨fresh, "", ⟨"", none, none, 0, 0, 0, 0, none, none, none⟩⟩

def codeTurn (fresh : String) : StepOutcome := .code (quietTurn fresh)

def approvalTurn (fresh : String) : StepOutcome :=
  .review [⟨quietTurn fresh, [.obj [("status", .str "approved"), ("issues", .arr []),
    ("summary", .str "ok")]]⟩] none

/-- Code that is reviewed, approved and settled. -/
def reviewedScript : List (StepOutcome × AvailableTransition) := [
  (codeTurn "a", advanceTo coderReviewer .review 1), (approvalTurn "b", settle 1)]

/-- Code written after its approval, settled without another review. -/
def reworkedScript : List (StepOutcome × AvailableTransition) := [
  (codeTurn "a", advanceTo coderReviewer .review 1), (approvalTurn "b", reworkCode 1),
  (codeTurn "c", stopHere coderReviewer 2)]

/-- The scripted run exists, approves and executes the given phases. -/
theorem approved_of_script (config : PipelineConfig) (phases : List WorkflowPhase)
    (script : List (StepOutcome × AvailableTransition))
    (h : (drive config (initialState config) script).any (fun r =>
      r.1.map (·.phase) == phases && r.2.done && r.2.approved) = true) :
    ∃ made state, Run (Commits config) (initialState config) made state ∧
      made.map (·.phase) = phases ∧ state.done = true ∧ state.approved = true := by
  obtain ⟨⟨made, state⟩, hdrive, facts⟩ := (Option.any_eq_true _ _).mp h
  simp only [Bool.and_eq_true, beq_iff_eq] at facts
  exact ⟨made, state, run_of_drive hdrive, facts.1.1, facts.1.2, facts.2⟩

theorem approval_fresh_iff_reviewedScript :
    ∃ made state, state.approved = true ∧ (ApprovalFresh made state ↔
      Run (Guarded (Commits coderReviewer) fun s m => ¬ StaleStop s m)
        (initialState coderReviewer) made state) := by
  obtain ⟨made, state, run, _, _, approved⟩ :=
    approved_of_script coderReviewer [.code, .review] reviewedScript (by decide +kernel)
  exact ⟨made, state, approved, approval_fresh_iff run⟩

/-- Reworked code is settled on the approval of the code before it. -/
theorem approval_fresh_refuted :
    ¬ ∀ config made state, Run (Commits config) (initialState config) made state →
      ApprovalFresh made state := by
  intro claim
  obtain ⟨made, state, run, phases, done, approved⟩ :=
    approved_of_script coderReviewer [.code, .review, .code] reworkedScript (by decide +kernel)
  obtain ⟨before, review, after, rfl, hreview, _, later⟩ :=
    claim coderReviewer made state run done approved
  have codeless : WorkflowPhase.code ∉ after.map (·.phase) := by
    intro mem
    obtain ⟨written, hmem, code⟩ := List.mem_map.mp mem
    exact (later written hmem).2 code
  -- The last review is followed by nothing, so the list would end with it.
  rcases after.eq_nil_or_concat with rfl | ⟨rest, last, rfl⟩
  · have ends := congrArg List.getLast? phases
    simp [hreview] at ends
  · have ends := congrArg List.getLast? phases
    have code : last.phase = .code := by simpa [List.getLast?_cons] using ends
    exact codeless (by simp [code])

end AdCoder.Orchestration
