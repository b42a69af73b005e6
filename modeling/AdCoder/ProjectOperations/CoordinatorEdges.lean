import AdCoder.Foundation.SectionMoves
import AdCoder.ProjectOperations.Coordinator

/-!
# The writes of a coordinator

Each durable write of a coordinator's work is one of a few edges between
checkpoints; resuming a paused run is described apart. An edge says what the
code knows where it writes. What a review starts from and what a closeout was
preceded by depends on the callers, and is part of the edge where they promise
it.
-/

namespace AdCoder.ProjectOperations

open Foundation Orchestration

/-! ## Checkpoints and what they say -/

/-- The workflow goes on: nothing pauses it and no step is pending. -/
structure Ready (c : RunCheckpoint) : Prop where
  phase : c.phase = .workflow
  running : c.workflowState.done = false
  unpaused : c.pause = none
  stepless : c.pendingStep = none

/-- The intent of the research was recorded as dispatched. -/
def Dispatched (c : RunCheckpoint) : Prop :=
  ∃ effect, c.researchEffect = some effect ∧ effect.status = .dispatched

/-- A contract that the operator accepted. -/
def OperatorDecision.IsAcceptedContract (decision : OperatorDecision) : Prop :=
  decision.status = .accepted ∧ decision.kind = .contract

instance (decision : OperatorDecision) : Decidable decision.IsAcceptedContract := by
  unfold OperatorDecision.IsAcceptedContract
  infer_instance

/-- A review has approved the contract of the decision. -/
def Approved (c : RunCheckpoint) (id : String) : Prop :=
  ∃ record ∈ c.contractReviews, record.decisionId = id ∧ record.status = .verdict .approved

instance (c : RunCheckpoint) (id : String) : Decidable (Approved c id) := by
  unfold Approved
  infer_instance

/-- Every accepted contract has been approved. -/
def Vetted (c : RunCheckpoint) : Prop :=
  ∀ decision ∈ c.decisions, decision.IsAcceptedContract → Approved c decision.id

/-- The review of a decision is recorded, and the run waits for it. -/
structure Reviewing (c : RunCheckpoint) (id : String) : Prop where
  running : c.workflowState.done = false
  recorded : ∃ record ∈ c.contractReviews, record.decisionId = id

section Checkpoints

variable (c : RunCheckpoint)

/-- A step's result, persisted before a transition is chosen. -/
def pendingCheckpoint (result : StepResult) (followUps : List FollowUp) : RunCheckpoint :=
  let completed := if c.workflowState.phase = .research then c.researchEffect else none
  { c with
    followUps := followUps
    contractReviews := reviewedContracts result c.contractReviews
    pendingStep := some result
    researchEffect := (completed.map fun effect => { effect with
      status := ResearchStatus.completed }).orElse fun _ => c.researchEffect
    completedEffects := match completed with
      | some effect => sortText (c.completedEffects ++ [effect.intent.effectId]).dedup
      | none => c.completedEffects }

def committedCheckpoint (state : WorkflowState) : RunCheckpoint :=
  { c with
    workflowState := state
    phase := if state.done then .followUps else .workflow
    pendingStep := none }

/-- The run goes into review for an accepted contract. -/
def reviewCheckpoint (id text : String) : RunCheckpoint :=
  { c with
    workflowState := { c.workflowState with
      contractRequirements := (c.workflowState.contractRequirements ++ [text]).eraseDups
      done := false
      approved := false
      phase := .review }
    contractReviews :=
      if c.contractReviews.any (·.decisionId == id) then c.contractReviews
      else c.contractReviews ++ [⟨id, .pending, none⟩] }

/-- The verdict of a contract review in the records. -/
def reviewedRecords (id : String) (status : VerdictStatus) (runId : String) :
    List ContractReviewRecord :=
  c.contractReviews.map fun record =>
    if record.decisionId = id then ⟨id, .verdict status, some runId⟩ else record

/-- A checkpoint of a contract review that has returned. -/
def reviewedCheckpoint (id : String) (status : VerdictStatus) (runId : String)
    (state : WorkflowState) (followUps : List FollowUp) (phase : CoordinatorPhase) :
    RunCheckpoint :=
  { c with
    workflowState := state
    contractReviews := reviewedRecords c id status runId
    followUps := followUps
    phase := phase }

end Checkpoints

/-! ## Edges -/

/-- A write of a coordinator. `strict` stands for the callers' promises: no approved contract is
reviewed again once the workflow has settled, and closeout is entered with every accepted contract
approved. -/
inductive Edge (config : PipelineConfig) (strict : Prop) : RunCheckpoint → RunCheckpoint → Prop
  | pauses {c : RunCheckpoint} {pause : Pause} (ready : Ready c) :
      Edge config strict c { c with pause := some pause }
  | prepares {c : RunCheckpoint} {intent : ResearchDispatchIntent} (ready : Ready c)
      (research : c.workflowState.phase = .research) (unprepared : c.researchEffect = none) :
      Edge config strict c (preparedCheckpoint c intent)
  | dispatches {c : RunCheckpoint} {effect : ResearchEffect} (ready : Ready c)
      (research : c.workflowState.phase = .research) (prepared : c.researchEffect = some effect)
      (undispatched : effect.status ≠ .dispatched) :
      Edge config strict c { c with researchEffect := some ⟨effect.intent, .dispatched⟩ }
  | fails {c next : RunCheckpoint} {failure : SessionFailure} (ready : Ready c)
      (failed : failedStep c c failure = some next) : Edge config strict c next
  | pends {c : RunCheckpoint} {outcome : StepOutcome} {result : StepResult}
      {followUps : List FollowUp} (ready : Ready c)
      (stepped : Orchestration.step config c.workflowState outcome = .ok result) :
      Edge config strict c (pendingCheckpoint c result followUps)
  | effects {c : RunCheckpoint} {effects : List String} (phase : c.phase = .followUps) :
      Edge config strict c { c with completedEffects := effects }
  | decides {c : RunCheckpoint} {id followUpId : String} {kind : DecisionKind}
      (phase : c.phase = .followUps) (fresh : ∀ decision ∈ c.decisions, decision.id ≠ id) :
      Edge config strict c { c with
        decisions := c.decisions ++ [⟨id, followUpId, kind, .pending, none, none⟩] }
  | processes {c : RunCheckpoint} (phase : c.phase = .followUps) :
      Edge config strict c { c with
        phase := if c.decisions.isEmpty then .closeout else .decisions }
  | closes {c : RunCheckpoint} (phase : c.phase = .decisions ∨ c.phase = .closeout)
      (resolved : c.decisions.any isPending = false) (vetted : strict → Vetted c) :
      Edge config strict c { c with phase := .closeout }
  | completes {c : RunCheckpoint} {closed : CoordinatorCloseout}
      (phase : c.phase = .closeout ∨ c.phase = .complete) (resolved : c.decisions.any isPending = false) (done : c.workflowState.done = true)
      (approved : ∀ record ∈ c.contractReviews, record.status = .verdict .approved) :
      Edge config strict c { c with phase := .complete, closeout := some closed }
  | commits {c : RunCheckpoint} {pending : StepResult} {chosen edge : AvailableTransition}
      (stepped : c.pendingStep = some pending) (offered : offeredEdge pending chosen = some edge) :
      Edge config strict c (committedCheckpoint c (applyTransition pending.state edge))
  | resolves {c : RunCheckpoint} {current next : OperatorDecision}
      (found : c.decisions.find? (·.id == current.id) = some current)
      (pending : current.status = .pending) (id : next.id = current.id)
      (kind : next.kind = current.kind) (resolved : next.status ≠ .pending) :
      Edge config strict c { c with decisions := replaceDecision c.decisions next }
  | reviews {c : RunCheckpoint} {decision : OperatorDecision} {text : String}
      (found : c.decisions.find? (·.id == decision.id) = some decision)
      (accepted : decision.IsAcceptedContract)
      (fresh : strict → c.phase ≠ .workflow → ¬ Approved c decision.id) :
      Edge config strict c (reviewCheckpoint c decision.id text)
  | approves {c : RunCheckpoint} {id runId : String} {state : WorkflowState}
      {followUps : List FollowUp} (reviewing : Reviewing c id) :
      Edge config strict c (reviewedCheckpoint c id .approved runId
        { state with phase := .done, done := true, approved := true } followUps .followUps)
  | blocks {c : RunCheckpoint} {id runId : String} {status : VerdictStatus}
      {state : WorkflowState} {followUps : List FollowUp} (reviewing : Reviewing c id)
      (unapproved : status ≠ .approved) (phase : state.phase = .review) :
      Edge config strict c (reviewedCheckpoint c id status runId state followUps c.phase)
  | reworks {c : RunCheckpoint} {id runId : String} {status : VerdictStatus}
      {state : WorkflowState} {advance : AvailableTransition} {followUps : List FollowUp}
      (reviewing : Reviewing c id) (unapproved : status ≠ .approved)
      (code : advance.toPhase = .code) :
      Edge config strict c (reviewedCheckpoint c id status runId (applyTransition state advance)
        followUps .workflow)

/-- The writes before a step of the session is awaited. -/
inductive Prepares : RunCheckpoint → RunCheckpoint → Prop
  | pauses {c : RunCheckpoint} {pause : Pause} (ready : Ready c) :
      Prepares c { c with pause := some pause }
  | prepares {c : RunCheckpoint} {intent : ResearchDispatchIntent} (ready : Ready c)
      (research : c.workflowState.phase = .research) (unprepared : c.researchEffect = none) :
      Prepares c (preparedCheckpoint c intent)
  | dispatches {c : RunCheckpoint} {effect : ResearchEffect} (ready : Ready c)
      (research : c.workflowState.phase = .research) (prepared : c.researchEffect = some effect)
      (undispatched : effect.status ≠ .dispatched) :
      Prepares c { c with researchEffect := some ⟨effect.intent, .dispatched⟩ }

theorem Prepares.edge {config : PipelineConfig} {strict : Prop} {c next : RunCheckpoint}
    (h : Prepares c next) : Edge config strict c next := by
  cases h with
  | pauses ready => exact .pauses ready
  | prepares ready research unprepared => exact .prepares ready research unprepared
  | dispatches ready research prepared undispatched =>
      exact .dispatches ready research prepared undispatched

/-! ## Resumptions -/

/-- A paused research is reopened. -/
def Reopens (c next : RunCheckpoint) : Prop :=
  c.pause.map (·.phase) = some .research ∧
    next = { c with
      pause := none
      researchEffect := c.researchEffect.map (·.reopened) }

/-- A paused stage goes on. -/
def Unpauses (c next : RunCheckpoint) : Prop :=
  c.pause.isSome = true ∧ next = { c with pause := none }

/-- A run that its cap settled goes on at the next code round. -/
def RaisesCap (c next : RunCheckpoint) : Prop :=
  c.workflowState.done = true ∧ ∃ raised : RaisedRoundCap, next = { c with
    phase := .workflow
    workflowState := { c.workflowState with
      escalation := none
      phase := .code
      round := c.workflowState.round + 1
      done := false
      approved := false }
    raisedRoundCap := some raised
    closeout := none
    pendingStep := none }

/-! ## Awaiting the session -/

/-- The text of a resolved decision changes in memory. -/
def Rewords (c next : RunCheckpoint) : Prop :=
  ∃ current reworded : OperatorDecision, c.decisions.find? (·.id == current.id) = some current ∧
    current.IsAcceptedContract ∧ reworded.IsAcceptedContract ∧ reworded.id = current.id ∧
    next = { c with decisions := replaceDecision c.decisions reworded }

/-- Decisions that `run` resolves one by one: the accepted contracts among them stay such. -/
def Known (decisions : List OperatorDecision) (c : RunCheckpoint) : Prop :=
  ∀ decision ∈ decisions, decision.IsAcceptedContract → ∃ current,
    c.decisions.find? (·.id == decision.id) = some current ∧ current.IsAcceptedContract

/-- What a coordinator in flight waits for. -/
inductive FlightAt (c : RunCheckpoint) : Flight → Prop
  | step (ready : Ready c) (dispatched : c.workflowState.phase = .research → Dispatched c) :
      FlightAt c (.step c)
  | review {id : String} {rest : Option (List OperatorDecision)} (reviewing : Reviewing c id)
      (phase : c.workflowState.phase = .review) (known : ∀ decisions ∈ rest, Known decisions c) :
      FlightAt c (.review id c.workflowState rest)

/-- Where a section may end. It awaits research only if it was not dispatched at the start. -/
def Ends (start : RunCheckpoint) : Progress → RunCheckpoint → Prop
  | .awaits flight, c => FlightAt c flight ∧
      ∀ now, flight = .step now → now.workflowState.phase = .research →
        Ready start ∧ start.workflowState.phase = .research ∧ ¬ Dispatched start
  | _, _ => True

end AdCoder.ProjectOperations
