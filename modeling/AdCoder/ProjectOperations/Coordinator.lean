import AdCoder.Foundation.Sections
import AdCoder.ProjectOperations.FileBacklog
import AdCoder.ProjectOperations.Pauses

/-!
# The run coordinator

The owner of a run's checkpoint. Each method is cut at its awaits into sections;
a call that awaits the session leaves a flight behind, with what it captured.
-/

namespace AdCoder.ProjectOperations

open Foundation Orchestration

/-! ## The checkpoint -/

inductive CoordinatorPhase where
  | workflow
  | followUps
  | decisions
  | closeout
  | complete
  deriving DecidableEq

inductive DecisionStatus where
  | pending
  | accepted
  | rejected
  | deferred
  deriving DecidableEq

inductive DecisionKind where
  | contract
  | product
  deriving DecidableEq

inductive ResolutionSource where
  | operator
  | hostConfig
  deriving DecidableEq

structure OperatorDecision where
  id : String
  followUpId : String
  kind : DecisionKind
  status : DecisionStatus
  authorizationSource : Option ResolutionSource
  contractText : Option String
  deriving DecidableEq

inductive ContractReviewStatus where
  | pending
  | verdict (status : VerdictStatus)
  deriving DecidableEq

structure ContractReviewRecord where
  decisionId : String
  status : ContractReviewStatus
  runId : Option String
  deriving DecidableEq

/-- A settled workflow, flattened. -/
structure PipelineResult where
  approved : Bool
  rounds : Nat
  verdicts : List Verdict
  reviewRan : Bool
  runIds : List String
  escalation : Option EscalationSignal
  stageMetrics : List PipelineStageMetrics
  gateReport : Option GateReport
  complexity : Option Complexity
  securitySurface : Option SecuritySurface
  contractRequirements : List String

def toPipelineResult (state : WorkflowState) : PipelineResult where
  approved := state.approved
  rounds := state.verdicts.length
  verdicts := state.verdicts
  reviewRan := !state.verdicts.isEmpty
  runIds := state.runIds
  escalation := state.escalation
  stageMetrics := state.stageMetrics
  gateReport := state.lastGateReport
  complexity := state.complexity
  securitySurface := state.securitySurface
  contractRequirements := state.contractRequirements

structure CoordinatorCloseout where
  pipeline : PipelineResult
  followUpIds : List String
  decisionIds : List String

structure RaisedRoundCap where
  limit : Nat
  reason : String
  raisedAt : String

inductive ResearchStatus where
  | prepared
  | dispatched
  | completed
  deriving DecidableEq

structure ResearchEffect where
  intent : ResearchDispatchIntent
  status : ResearchStatus

structure RunCheckpoint where
  runId : String
  taskDigest : Option String
  phase : CoordinatorPhase
  workflowState : WorkflowState
  followUps : List FollowUp
  completedEffects : List String
  decisions : List OperatorDecision
  contractReviews : List ContractReviewRecord
  closeout : Option CoordinatorCloseout
  pendingStep : Option StepResult
  raisedRoundCap : Option RaisedRoundCap
  researchEffect : Option ResearchEffect
  pause : Option Pause

/-! ## The host of a coordinator -/

inductive ProfileRole where
  | planner
  | researcher
  | security
  | coder
  | reviewer
  deriving DecidableEq

/-- `ROLE_BY_PHASE`. -/
def roleByPhase : WorkflowPhase → Option ProfileRole
  | .plan => some .planner
  | .research => some .researcher
  | .security => some .security
  | .code => some .coder
  | .review => some .reviewer
  | .gates => none
  | .done => none

inductive StageLimitKey where
  | maxDurationMs
  | maxModelTurns
  | maxToolTurns
  | maxInputTokens
  | maxCostUsd
  deriving DecidableEq

/-- `STAGE_LIMIT_KEY`. -/
def stageLimitKey : StageLimitReason → StageLimitKey
  | .duration => .maxDurationMs
  | .modelTurns => .maxModelTurns
  | .toolTurns => .maxToolTurns
  | .input => .maxInputTokens
  | .cost => .maxCostUsd
  | .costInFlight => .maxCostUsd
  | .costUnknown => .maxCostUsd

/-- The session and the options that a coordinator is built with. The digests
and the aggregation of follow-ups are the host's. -/
structure CoordinatorHost where
  config : PipelineConfig
  stageLimits : StageLimitKey → Option Rat
  roleStageLimits : ProfileRole → StageLimitKey → Option Rat
  researchDestination : String
  decisionLimit : Nat
  hasBacklog : Bool
  showNumber : JsNumber → String
  sha256 : String → String
  followUpSemanticId : FollowUp → String
  consolidateFollowUps : List FollowUp → Except ProjectOperationsError (List FollowUp)

/-- The first half of a digest. -/
def halfDigest (digest : String) : String := firstChars 32 digest

/-- What the world answers while a section runs. -/
structure CoordinatorWorld where
  interrupted : Bool
  createBacklog : FollowUp → Except BacklogFailure Unit
  getBacklog : String → Except BacklogFailure Unit
  document : FollowUp → Except ProjectOperationsError Unit
  documentContract : FollowUp → String → Except ProjectOperationsError Unit
  now : String

/-! ## The session -/

/-- The turn that a failed stage ran. -/
structure FailedTurn where
  runId : String
  metrics : PipelineStageMetrics

structure StageLimitError where
  reason : StageLimitReason
  limit : Rat
  snapshot : Option StageResumeSnapshot

/-- What a session call throws. -/
inductive SessionFailure where
  | stageLimit (error : StageLimitError) (turn : Option FailedTurn)
  | stageFailure (turn : FailedTurn) (source : SourceError)
  | orchestration (error : OrchestrationError)
  | thrown (source : SourceError)

/-- What a session call comes back with: an outcome to step on, or a failure,
and the follow-ups that its turn submitted. -/
structure SessionReturn where
  outcome : Except SessionFailure StepOutcome
  followUps : List FollowUp

def SessionFailure.ofStepError : StepError → SessionFailure
  | .orchestration error => .orchestration error
  | .turnFailed => .thrown (.untyped (some "Error") (some ""))
  | .completed => .thrown (.untyped (some "Error")
      (some "cannot step a completed workflow (phase 'done')"))

/-- A session method applied to what came back. -/
def SessionReturn.settle (returned : SessionReturn)
    (method : StepOutcome → Except StepError StepResult) : Except SessionFailure StepResult :=
  match returned.outcome with
  | .error failure => .error failure
  | .ok outcome => (method outcome).mapError .ofStepError

/-- `session.reviewCurrent`. -/
def reviewCurrent (config : PipelineConfig) (state : WorkflowState) :
    StepOutcome → Except StepError StepResult
  | .review turns inventory => stepReview config state turns inventory
  | _ => .error .turnFailed

/-! ## Sections -/

inductive CoordinatorError where
  | operations (error : ProjectOperationsError)
  | backlog (failure : BacklogFailure)
  | session (failure : SessionFailure)
  | refused

abbrev CoordinatorSection := Section RunCheckpoint CoordinatorError

/-- A call that awaits the session, with what it captured before. A review of
`run` also has the decisions left to resolve. -/
inductive Flight where
  | step (checkpoint : RunCheckpoint)
  | review (id : String) (state : WorkflowState) (rest : Option (List OperatorDecision))

inductive RunStatus where
  | awaitingDecision
  | paused
  | complete
  deriving DecidableEq

/-- Where a section ends. -/
inductive Progress where
  | awaits (flight : Flight)
  | stepped (result : Option StepResult)
  | committed (state : WorkflowState)
  | resolved
  | ran (status : RunStatus) (checkpoint : RunCheckpoint) (result : Option PipelineResult)

/-- Throw an error of project operations. -/
def refuse {α : Type} (code : ProjectOperationsErrorCode) (detail : String) :
    CoordinatorSection α :=
  throw (.operations ⟨code, detail⟩)

def liftOperations {α : Type} : Except ProjectOperationsError α → CoordinatorSection α
  | .ok a => pure a
  | .error error => throw (.operations error)

/-- `save`. A checkpoint over the size limit is refused like any other write that
the storage does not take. -/
def saveCheckpoint (value : RunCheckpoint) : CoordinatorSection Unit :=
  Section.save (.operations ⟨.checkpointConflict, value.runId⟩) .refused value

/-! ### Resuming a paused or settled run -/

def unauthorized {α : Type} (checkpoint : RunCheckpoint) : CoordinatorSection α :=
  refuse .unauthorizedResolution checkpoint.runId

/-- A dispatch that is resumed is prepared again. -/
def ResearchEffect.reopened (effect : ResearchEffect) : ResearchEffect :=
  if effect.status = .dispatched then { effect with status := .prepared } else effect

def resumeResearch (source : ResolutionSource) : CoordinatorSection Progress := do
  let checkpoint ← Section.read
  if source ≠ .operator ∨ checkpoint.pause.map (·.phase) ≠ some .research then
    unauthorized checkpoint
  else do
    saveCheckpoint { checkpoint with
      pause := none
      researchEffect := checkpoint.researchEffect.map (·.reopened) }
    return .resolved

/-- `PAUSES_CLEARED_BY_AN_EXPLICIT_ACT`. -/
def pausesClearedByAnExplicitAct : List String := [
  "stage_limit", "stage_failed", "provider_rejected", "interrupted", "review_not_run",
  "plan_not_submitted", "plan_not_json"]

/-- The limit under which a resumed stage would run; zero is none. -/
def resumedLimit (host : CoordinatorHost) (phase : WorkflowPhase) (reason : StageLimitReason) :
    Rat :=
  let key := stageLimitKey reason
  ((((roleByPhase phase).bind fun role => host.roleStageLimits role key).orElse
    fun _ => host.stageLimits key).getD 0)

def resumeStage (host : CoordinatorHost) : CoordinatorSection Progress := do
  let checkpoint ← Section.read
  match checkpoint.pause with
  | none => unauthorized checkpoint
  | some pause =>
      if !pausesClearedByAnExplicitAct.contains pause.code then unauthorized checkpoint
      else if pause.code ≠ "stage_limit" then do
        saveCheckpoint { checkpoint with pause := none }
        return .resolved
      else match pause.limitReason, pause.limit with
        | some reason, some priorLimit => do
            let resumed := resumedLimit host checkpoint.workflowState.phase reason
            if resumed ≠ 0 ∧ resumed ≤ priorLimit then
              refuse .invalidConfig ("unchanged " ++ reason.text ++ " stage limit")
            else do
              saveCheckpoint { checkpoint with pause := none }
              return .resolved
        | _, _ => refuse .invalidConfig "stage pause lacks limit evidence"

/-- Reopen a run that its round cap settled, at the next code round. -/
def resumeRoundCap (limit : Nat) (reason : String) (world : CoordinatorWorld) :
    CoordinatorSection Progress := do
  let checkpoint ← Section.read
  let workflow := checkpoint.workflowState
  if workflow.done = false ∨ workflow.escalation.map (·.reason) ≠ some .capExhausted then
    refuse .invalidConfig "a round-cap raise requires a cap-stopped run"
  else if limit ≤ workflow.round then refuse .invalidConfig "unchanged rounds cap"
  else do
    saveCheckpoint { checkpoint with
      phase := .workflow
      workflowState := { workflow with
        escalation := none
        phase := .code
        round := workflow.round + 1
        done := false
        approved := false }
      raisedRoundCap := some ⟨limit, reason, world.now⟩
      closeout := none
      pendingStep := none }
    return .resolved

/-! ### Stepping -/

def interruptedPause (phase : WorkflowPhase) : Pause :=
  pauseOf phase "interrupted" "resume the interrupted workflow explicitly" none

def SourceError.ofOrchestration (error : OrchestrationError) : SourceError :=
  .typed "OrchestrationError" error.code.text error.message

/-- The cause that a research pause records. -/
def researchCause (source : SourceError) : PipelinePauseCause :=
  (pauseCauseFrom source 0).getD (untypedPauseCause source)

def unsafeRequestPause (source : SourceError) : Pause :=
  let cause := researchCause source
  pauseOf .research "unsafe_request"
    ("the research request could not be prepared safely (unsafe_request); see the recorded " ++
      "durable cause (" ++ cause.code ++ "), narrow the request, then resume explicitly")
    (some cause)

/-- Pause the held checkpoint and end the step. -/
def pauseStep (checkpoint : RunCheckpoint) (pause : Pause) : CoordinatorSection Progress := do
  saveCheckpoint { checkpoint with pause := some pause }
  return .stepped none

/-- The checkpoint with a prepared research intent. -/
def preparedCheckpoint (checkpoint : RunCheckpoint) (intent : ResearchDispatchIntent) :
    RunCheckpoint :=
  { checkpoint with
    workflowState := { checkpoint.workflowState with researchIntent := some intent }
    researchEffect := some ⟨intent, .prepared⟩ }

/-- Record the dispatch of a prepared intent, then await the session. -/
def dispatchResearch (checkpoint : RunCheckpoint) (intent : ResearchDispatchIntent) :
    CoordinatorSection Progress := do
  let dispatched := { checkpoint with researchEffect := some ⟨intent, .dispatched⟩ }
  saveCheckpoint dispatched
  return .awaits (.step dispatched)

def prepareStep (host : CoordinatorHost) (world : CoordinatorWorld) :
    CoordinatorSection Progress := do
  let checkpoint ← Section.read
  let state := checkpoint.workflowState
  if checkpoint.phase ≠ .workflow ∨ state.done = true then return .stepped none
  else if checkpoint.pause.isSome then return .stepped none
  else match checkpoint.pendingStep with
    | some pending => return .stepped (some pending)
    | none =>
        if world.interrupted then pauseStep checkpoint (interruptedPause state.phase)
        else if state.phase ≠ .research then return .awaits (.step checkpoint)
        else match checkpoint.researchEffect with
          | some effect =>
              if effect.status = .dispatched then
                pauseStep checkpoint (pauseOf .research "ambiguous_dispatch"
                  "reconcile the provider effect by its effectId, then resume explicitly" none)
              else dispatchResearch checkpoint effect.intent
          | none =>
              match prepareResearch host.config host.showNumber host.sha256
                  host.researchDestination state with
              | .error error =>
                  pauseStep checkpoint (unsafeRequestPause (.ofOrchestration error))
              | .ok none =>
                  pauseStep checkpoint (pauseOf .research "researcher_unavailable"
                    "configure roles.researcher and resume" none)
              | .ok (some intent) => do
                  saveCheckpoint (preparedCheckpoint checkpoint intent)
                  dispatchResearch (preparedCheckpoint checkpoint intent) intent

/-- The state of a stage whose turn failed: its run and metrics are kept. -/
def failedState (state : WorkflowState) (turn : FailedTurn) : WorkflowState :=
  { state with
    runIds := state.runIds ++ [turn.runId]
    stageMetrics := state.stageMetrics ++ [turn.metrics] }

/-- The phases whose paused stage is resumed where it stopped. -/
def resumablePhase : WorkflowPhase → Bool
  | .plan => true
  | .security => true
  | .code => true
  | .review => true
  | _ => false

def limitedState (state : WorkflowState) (error : StageLimitError) :
    Option FailedTurn → WorkflowState
  | none => state
  | some turn =>
      if resumablePhase state.phase then
        { failedState state turn with
          activeStage := some ⟨state.phase, turn.metrics.stage, turn.runId, some turn.metrics,
            error.snapshot⟩ }
      else failedState state turn

/-- The state that records a cause, if there is one. -/
def recordCause (state : WorkflowState) (phase : WorkflowPhase)
    (cause : Option PipelinePauseCause) : WorkflowState :=
  match cause with
  | none => state
  | some cause => recordStageFailure state phase cause

def notRunAction (code : OrchestrationErrorCode) : String :=
  "the review stage did not run (" ++ code.text ++ "); inspect the reviewer's registration " ++
    "and configuration, then resume the review explicitly"

def planPauseCode : OrchestrationErrorCode → String
  | .planNotJson => "plan_not_json"
  | _ => "plan_not_submitted"

def planAction : OrchestrationErrorCode → String
  | .planNotJson => "the planner answered in prose without a JSON object (plan_not_json); " ++
      "call submit_plan with the complete required object, then resume the plan explicitly"
  | code => "the planner did not submit a plan (" ++ code.text ++ "); inspect the planner's " ++
      "registration and configuration, then resume the plan explicitly"

/-- The checkpoint that a failed step leaves, if it is not thrown on. `now` is
held when the session returns, `checkpoint` is what the step captured. -/
def failedStep (now checkpoint : RunCheckpoint) (failure : SessionFailure) :
    Option RunCheckpoint :=
  let state := checkpoint.workflowState
  let phase := state.phase
  let research (source : SourceError) (failed : WorkflowState) : RunCheckpoint :=
    let cause := researchCause source
    { now with
      workflowState := failed
      pause := some (pauseOf .research "research_rejected"
        ("the research stage failed (research_rejected); see the recorded durable cause (" ++
          cause.code ++ "), inspect and retry the research response explicitly") (some cause)) }
  match failure with
  | .stageLimit error turn => some { now with
      workflowState := limitedState state error turn
      pause := some ⟨phase, "stage_limit", "increase or disable the " ++ error.reason.text ++
        " stage limit, then resume explicitly", some error.reason, some error.limit, none⟩ }
  | .stageFailure turn source =>
      if phase = .research then some (research source (failedState state turn))
      else
        let pause := stageFailurePause phase source state.lastStageFailure
        some { now with
          workflowState := recordCause (failedState state turn) phase pause.cause
          pause := some pause }
  | .orchestration error =>
      let source := SourceError.ofOrchestration error
      let cause := pauseCauseFrom source (recurrenceOf state.lastStageFailure phase source)
      if (error.code = .missingVerdict ∨ error.code = .malformedVerdict) ∧ phase = .review then
        some { checkpoint with
          workflowState := recordCause state .review cause
          pause := some (pauseOf .review "review_not_run" (notRunAction error.code) cause) }
      else if (error.code = .missingPlan ∨ error.code = .planNotJson) ∧ phase = .plan then
        some { checkpoint with
          workflowState := recordCause state .plan cause
          pause := some (pauseOf .plan (planPauseCode error.code) (planAction error.code) cause) }
      else if phase = .research then some (research source state)
      else none
  | .thrown source => if phase = .research then some (research source state) else none

/-- An approved review settles the contract reviews that asked for changes. -/
def reviewedContracts (result : StepResult) (records : List ContractReviewRecord) :
    List ContractReviewRecord :=
  if result.verdict.map (·.status) = some .approved then
    records.map fun record =>
      if record.status = .verdict .changesRequested then
        { record with status := .verdict .approved, runId := some result.runId }
      else record
  else records

/-- Add an effect to the completed ones, which are kept sorted and distinct. -/
def withEffect (effects : List String) (key : String) : List String :=
  sortText (effects ++ [key])

/-- The rest of a step, from the return of the session. -/
def finishStep (host : CoordinatorHost) (checkpoint : RunCheckpoint) (returned : SessionReturn)
    (world : CoordinatorWorld) : CoordinatorSection Progress := do
  let state := checkpoint.workflowState
  match returned.settle (Orchestration.step host.config state) with
  | .error failure =>
      let now ← Section.read
      if world.interrupted then pauseStep now (interruptedPause state.phase)
      else match failedStep now checkpoint failure with
        | none => throw (.session failure)
        | some next => do
            saveCheckpoint next
            return .stepped none
  | .ok result =>
      let followUps ← liftOperations
        (host.consolidateFollowUps (checkpoint.followUps ++ returned.followUps))
      let completed := if state.phase = .research then checkpoint.researchEffect else none
      saveCheckpoint { checkpoint with
        followUps := followUps
        contractReviews := reviewedContracts result checkpoint.contractReviews
        pendingStep := some result
        researchEffect := (completed.map fun effect => { effect with
          status := ResearchStatus.completed }).orElse fun _ => checkpoint.researchEffect
        completedEffects := match completed with
          | some effect => sortText (checkpoint.completedEffects ++ [effect.intent.effectId]).dedup
          | none => checkpoint.completedEffects }
      return .stepped (some result)

/-! ### Follow-ups and closeout -/

def recordEffect (key : String) : CoordinatorSection Unit := do
  let checkpoint ← Section.read
  if checkpoint.completedEffects.contains key then return ()
  else saveCheckpoint { checkpoint with
    completedEffects := withEffect checkpoint.completedEffects key }

def ensureDecision (host : CoordinatorHost) (followUp : FollowUp) (kind : DecisionKind) :
    CoordinatorSection Unit := do
  let checkpoint ← Section.read
  let followUpId := host.followUpSemanticId followUp
  let id := halfDigest (host.sha256 ("decision:" ++ followUpId))
  if checkpoint.decisions.any (·.id == id) then return ()
  else if host.decisionLimit > 0 ∧ checkpoint.decisions.length ≥ host.decisionLimit then
    refuse .resourceLimit "decisionLimit"
  else saveCheckpoint { checkpoint with
    decisions := checkpoint.decisions ++ [⟨id, followUpId, kind, .pending, none, none⟩] }

/-- Create a backlog item, or find the one that is there. -/
def recordBacklog (host : CoordinatorHost) (world : CoordinatorWorld) (followUp : FollowUp)
    (id : String) : CoordinatorSection Unit :=
  if !host.hasBacklog then refuse .githubUnavailable "backlogStore"
  else match world.createBacklog followUp with
    | .ok () => pure ()
    | .error (.store .versionConflict) =>
        match world.getBacklog (halfDigest id) with
        | .ok () => pure ()
        | .error failure => throw (.backlog failure)
    | .error failure => throw (.backlog failure)

def processFollowUp (host : CoordinatorHost) (world : CoordinatorWorld) (followUp : FollowUp) :
    CoordinatorSection PUnit := do
  let id := host.followUpSemanticId followUp
  let effect := "follow-up:" ++ id
  let checkpoint ← Section.read
  if checkpoint.completedEffects.contains effect then return ()
  else match followUp with
    | .contract .. => do
        ensureDecision host followUp .contract
        recordEffect effect
    | .backlog .. => do
        recordBacklog host world followUp id
        recordEffect effect
    | _ =>
        match world.document followUp with
        | .ok () => recordEffect effect
        | .error error =>
            if error.code = .unsafeDestination then do
              ensureDecision host followUp .product
              recordEffect effect
            else throw (.operations error)

def processFollowUps (host : CoordinatorHost) (world : CoordinatorWorld) :
    CoordinatorSection Unit := do
  let checkpoint ← Section.read
  if checkpoint.phase ≠ .followUps then return ()
  else do
    checkpoint.followUps.forM (processFollowUp host world)
    let processed ← Section.read
    saveCheckpoint { processed with
      phase := if processed.decisions.isEmpty then .closeout else .decisions }

def isPending (decision : OperatorDecision) : Bool := decision.status = .pending

def closeout (host : CoordinatorHost) : CoordinatorSection Progress := do
  let checkpoint ← Section.read
  match checkpoint.closeout with
  | some closed => return .ran .complete checkpoint (some closed.pipeline)
  | none =>
      if checkpoint.decisions.any isPending then return .ran .awaitingDecision checkpoint none
      else if checkpoint.workflowState.done = false then
        return .ran .awaitingDecision checkpoint none
      else if checkpoint.contractReviews.any (·.status ≠ .verdict .approved) then
        refuse .unresolvedReview checkpoint.runId
      else do
        let pipeline := toPipelineResult checkpoint.workflowState
        saveCheckpoint { checkpoint with
          phase := .complete
          closeout := some ⟨pipeline,
            sortText (checkpoint.followUps.map host.followUpSemanticId),
            sortText (checkpoint.decisions.map (·.id))⟩ }
        let complete ← Section.read
        return .ran .complete complete (some pipeline)

/-! ### Committing -/

/-- The offered edge that the driver chose, by kind and target. -/
def offeredEdge (pending : StepResult) (chosen : AvailableTransition) :
    Option AvailableTransition :=
  pending.transitions.find? fun t =>
    t.kind = chosen.kind && t.toPhase = chosen.toPhase && t.toRound = chosen.toRound

def commitTransition (host : CoordinatorHost) (chosen : AvailableTransition)
    (world : CoordinatorWorld) : CoordinatorSection Progress := do
  let checkpoint ← Section.read
  match checkpoint.pendingStep.bind fun pending =>
      (offeredEdge pending chosen).map fun edge => (pending, edge) with
  | none => refuse .invalidTransition chosen.kind.text
  | some (pending, edge) => do
      let state := applyTransition pending.state edge
      saveCheckpoint { checkpoint with
        workflowState := state
        phase := if state.done then .followUps else .workflow
        pendingStep := none }
      if state.done then do
        processFollowUps host world
        let processed ← Section.read
        if processed.phase = .closeout then do
          let _ ← closeout host
          return .committed state
        else return .committed state
      else return .committed state

/-! ### Resolving decisions -/

inductive ResolutionAction where
  | accept
  | reject
  | defer
  deriving DecidableEq

structure DecisionResolution where
  source : ResolutionSource
  action : ResolutionAction
  contractText : Option String

def ResolutionAction.status : ResolutionAction → DecisionStatus
  | accept => .accepted
  | reject => .rejected
  | defer => .deferred

/-- `text.includes("<!--")`. -/
def hasCommentStart : List Char → Bool
  | [] => false
  | x :: rest => "<!--".toList.isPrefixOf (x :: rest) || hasCommentStart rest

def validateContractText (text : Option String) (id : String) :
    Except ProjectOperationsError String :=
  match text with
  | none => .error ⟨.invalidFollowUp, id⟩
  | some text =>
      if trim text = "" ∨ text ≠ trim text ∨ hasLineBreakOrNul text ∨
          hasCommentStart text.toList then .error ⟨.invalidFollowUp, id⟩
      else .ok text

/-- Replace the first decision with the id. -/
def replaceDecision (decisions : List OperatorDecision) (next : OperatorDecision) :
    List OperatorDecision :=
  match decisions with
  | [] => []
  | decision :: rest =>
      if decision.id = next.id then next :: rest else decision :: replaceDecision rest next

/-- The decision as a resolution leaves it. -/
def resolvedDecision (current : OperatorDecision) (resolution : DecisionResolution) :
    Except ProjectOperationsError OperatorDecision :=
  let next := if current.status = .pending then
    { current with
      status := resolution.action.status
      authorizationSource := some .operator }
  else current
  if resolution.action = .accept ∧ current.kind = .contract then
    (validateContractText resolution.contractText current.id).map fun text =>
      { next with contractText := some text }
  else .ok next

def isContract : FollowUp → Bool
  | .contract .. => true
  | _ => false

/-- Write an accepted contract down and put the run into review for it. -/
def startContractReview (host : CoordinatorHost) (id : String) (decision : OperatorDecision)
    (rest : Option (List OperatorDecision)) (world : CoordinatorWorld) :
    CoordinatorSection Progress := do
  let checkpoint ← Section.read
  match checkpoint.followUps.find? (host.followUpSemanticId · == decision.followUpId) with
  | none => refuse .notFound decision.followUpId
  | some followUp =>
      if !isContract followUp then refuse .notFound decision.followUpId
      else do
        let text := decision.contractText.getD ""
        liftOperations (world.documentContract followUp text)
        let state := { checkpoint.workflowState with
          contractRequirements := (checkpoint.workflowState.contractRequirements ++
            [text]).eraseDups
          done := false
          approved := false
          phase := .review }
        saveCheckpoint { checkpoint with
          workflowState := state
          contractReviews :=
            if checkpoint.contractReviews.any (·.decisionId == id) then
              checkpoint.contractReviews
            else checkpoint.contractReviews ++ [⟨id, .pending, none⟩] }
        return .awaits (.review id state rest)

def resolveDecision (host : CoordinatorHost) (id : String) (resolution : DecisionResolution)
    (rest : Option (List OperatorDecision)) (world : CoordinatorWorld) :
    CoordinatorSection Progress := do
  if resolution.source ≠ .operator then refuse .unauthorizedResolution id
  else do
    let checkpoint ← Section.read
    match checkpoint.decisions.find? (·.id == id) with
    | none => refuse .notFound id
    | some current =>
        if current.status ≠ .pending ∧
            ¬(current.status = .accepted ∧ current.kind = .contract) then return .resolved
        else do
          let next ← liftOperations (resolvedDecision current resolution)
          let resolved := { checkpoint with
            decisions := replaceDecision checkpoint.decisions next }
          -- A decision that was resolved before is changed in memory only.
          if current.status = .pending then saveCheckpoint resolved
          else Section.assign resolved
          if next.status ≠ .accepted ∨ next.kind ≠ .contract then return .resolved
          else startContractReview host id next rest world

/-- The rest of a resolution, from the return of the review. -/
def finishReview (host : CoordinatorHost) (id : String) (state : WorkflowState)
    (returned : SessionReturn) : CoordinatorSection Progress := do
  match returned.settle (reviewCurrent host.config state) with
  | .error failure => throw (.session failure)
  | .ok review =>
      match review.verdict with
      | none => refuse .unresolvedReview id
      | some verdict => do
          let now ← Section.read
          let reviews := now.contractReviews.map fun record =>
            if record.decisionId = id then
              ⟨id, .verdict verdict.status, some review.runId⟩
            else record
          let followUps ← liftOperations
            (host.consolidateFollowUps (now.followUps ++ returned.followUps))
          if verdict.status = .approved then do
            saveCheckpoint { now with
              workflowState := { review.state with phase := .done, done := true, approved := true }
              contractReviews := reviews
              followUps := followUps
              phase := .followUps }
            return .resolved
          else match review.transitions.find? (·.toPhase = .code) with
            | none => do
                saveCheckpoint { now with
                  workflowState := review.state
                  contractReviews := reviews
                  followUps := followUps }
                refuse .unresolvedReview id
            | some advance => do
                saveCheckpoint { now with
                  workflowState := applyTransition review.state advance
                  contractReviews := reviews
                  followUps := followUps
                  phase := .workflow }
                return .resolved

/-! ### The run loop -/

/-- The end of `run` once every accepted contract was resolved. -/
def settleDecisions (host : CoordinatorHost) (world : CoordinatorWorld) :
    CoordinatorSection Progress := do
  let resumed ← Section.read
  if resumed.phase = .workflow then prepareStep host world
  else do
    if resumed.phase = .followUps then processFollowUps host world
    else pure ()
    let settled ← Section.read
    if settled.decisions.any isPending then return .ran .awaitingDecision settled none
    else do
      saveCheckpoint { settled with phase := .closeout }
      closeout host

/-- Resolve the accepted contracts that no approving review has settled yet, up
to the first one whose review must be awaited. -/
def resolveAccepted (host : CoordinatorHost) (world : CoordinatorWorld) :
    List OperatorDecision → CoordinatorSection Progress
  | [] => settleDecisions host world
  | decision :: rest => do
      let checkpoint ← Section.read
      if decision.status = .accepted ∧ decision.kind = .contract ∧
          ¬ checkpoint.contractReviews.any (fun record =>
            record.decisionId = decision.id && record.status = .verdict .approved) then do
        let progress ← resolveDecision host decision.id
          ⟨.operator, .accept, decision.contractText⟩ (some rest) world
        match progress with
        | .awaits flight => return .awaits flight
        | _ => resolveAccepted host world rest
      else resolveAccepted host world rest

/-- `run` from its loop on. It keeps nothing between two steps, so a run that
goes on after one is entered again here. -/
def run (host : CoordinatorHost) (world : CoordinatorWorld) : CoordinatorSection Progress := do
  let checkpoint ← Section.read
  if checkpoint.phase = .workflow then do
    let progress ← prepareStep host world
    let now ← Section.read
    match progress with
    | .stepped none =>
        if now.pause.isSome then return .ran .paused now none else return .stepped none
    | progress => return progress
  else do
    if checkpoint.phase = .followUps then processFollowUps host world
    else pure ()
    let processed ← Section.read
    if processed.phase = .decisions then resolveAccepted host world processed.decisions
    else closeout host

end AdCoder.ProjectOperations
