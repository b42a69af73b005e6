import AdCoder.Orchestration.Plan
import AdCoder.Orchestration.Verdict
import AdCoder.Orchestration.Workflow

/-!
# The stepped workflow session

One step runs the pending role turn of a phase and offers the transitions that
may be committed next. What the roles, the gates and the host return is the
outcome given to the step; prompts and context selection are not part of it.
-/

namespace AdCoder.Orchestration

open Foundation

inductive OnChangesRequested where
  | advance
  | stop
  deriving DecidableEq

/-- The resolved configuration: which roles and gates exist, and the defaults. -/
structure PipelineConfig where
  planner : Bool
  security : Bool
  researcher : Bool
  qualityGates : Bool
  onChangesRequested : OnChangesRequested
  autoAdvance : Bool
  maxRounds : Nat
  preComplexity : Complexity
  plannerHandoffAttempts : Nat
  maxRounds_pos : 1 ≤ maxRounds
  handoff : plannerHandoffAttempts = 1 ∨ plannerHandoffAttempts = 2

/-- `REVIEW_SUBMISSION_ATTEMPTS`. -/
def reviewSubmissionAttempts : Nat := 2

/-- `MAX_PAUSE_CAUSE_MESSAGE_CHARS`. -/
def maxPauseCauseMessageChars : Nat := 512

/-- A completed role turn. `fresh` is the run id drawn for it. -/
structure RoleTurn where
  fresh : String
  text : String
  metrics : PipelineStageMetrics
  deriving DecidableEq

/-- A planner turn with what it captured, by tool call or from its text. -/
structure PlanTurn extends RoleTurn where
  captured : Option (Except OrchestrationError Plan)

/-- A reviewer turn with the arguments of its `submit_verdict` calls. -/
structure ReviewTurn extends RoleTurn where
  submissions : List Json

/-- A research turn after its response was read and bounded. `canonical` gives
the digest of a contract's canonical file. -/
structure ResearchTurn where
  queryHash : String
  summary : String
  resolvedSurfaceIds : List String
  digest : String
  canonical : String → Option String
  metrics : PipelineStageMetrics

/-- What the environment returns to one step. -/
inductive StepOutcome where
  | plan (turns : List PlanTurn) (evidence : String)
  | research (turn : ResearchTurn)
  | security (turn : RoleTurn)
  | code (turn : RoleTurn)
  | gates (runId : String) (report : GateReport)
  | review (turns : List ReviewTurn) (inventory : Option (List RemovedTestInventoryEntry))

/-- A step that throws: a typed error, a turn that failed, or a settled run. -/
inductive StepError where
  | orchestration (error : OrchestrationError)
  | turnFailed
  | completed

structure StepResult where
  state : WorkflowState
  phase : WorkflowPhase
  runId : String
  text : String
  verdict : Option Verdict
  plan : Option Plan
  transitions : List AvailableTransition

def initialState (config : PipelineConfig) : WorkflowState where
  phase := if config.planner then .plan else .code
  round := 1
  planSummary := ""
  contractRequirements := []
  surfaceAnalysis := none
  affectedFiles := []
  researchIntent := none
  changeSummary := ""
  complexity := none
  securitySurface := none
  securityNotes := ""
  preComplexity := config.preComplexity
  effective := config.preComplexity
  verdicts := []
  runIds := []
  stageMetrics := []
  lastStageFailure := none
  activeStage := none
  lastGateReport := none
  done := false
  approved := false
  escalation := none

section Transitions

variable (config : PipelineConfig) (round : Nat)

/-- The default edge forward, and the edge that settles instead. -/
def advanceTo (phase : WorkflowPhase) (toRound : Nat) : AvailableTransition :=
  ⟨.advance, config.autoAdvance, phase, toRound⟩

def stopHere : AvailableTransition := ⟨.stop, !config.autoAdvance, .done, round⟩

def settle : AvailableTransition := ⟨.stop, true, .done, round⟩

def reworkCode : AvailableTransition := ⟨.rework, false, .code, round + 1⟩

end Transitions

/-! ## Plan -/

def orchestrationError (code : OrchestrationErrorCode) (detail message : String) : StepError :=
  .orchestration ⟨code, detail, message⟩

/-- The error of a planner that spent its attempts: the last rejection, or
silence, with the bounded evidence of what ran. -/
def planFailure (runId evidence : String) (lastRejection : Option OrchestrationError) :
    StepError :=
  let message (text : String) : String :=
    String.ofList (text.toList.take (max 1 (maxPauseCauseMessageChars - evidence.length - 2))) ++
      "; " ++ evidence
  match lastRejection with
  | some error => orchestrationError error.code runId (message error.message)
  | none => orchestrationError .missingPlan runId
      (message "planner did not submit required surface analysis")

/-- An attempt that resumes nothing. -/
def freshAttempt (phase : WorkflowPhase) (step fresh : String) : ActiveWorkflowStage × Bool :=
  (⟨phase, step, fresh, none, none⟩, false)

/-- What the planner handed over, with the accounting of all its attempts. -/
structure PlanHandoff where
  runId : String
  text : String
  plan : Plan
  settled : WorkflowState

/-- The planner turns, until one captures a plan or the attempts are spent. -/
def planAttempts (evidence : String) :
    Nat → (String → ActiveWorkflowStage × Bool) → Option OrchestrationError → String →
      WorkflowState → List PlanTurn → Except StepError PlanHandoff
  | 0, _, lastRejection, runId, _, _ => .error (planFailure runId evidence lastRejection)
  | _ + 1, _, _, _, _, [] => .error .turnFailed
  | remaining + 1, attemptOf, lastRejection, _, accumulated, turn :: later =>
      let attempt := attemptOf turn.fresh
      let settled := settledStage accumulated attempt.1 attempt.2 turn.metrics
      match turn.captured with
      | some (.ok plan) => .ok ⟨attempt.1.runId, turn.text, plan, settled⟩
      | some (.error rejection) => planAttempts evidence remaining (freshAttempt .plan "plan")
          (some rejection) attempt.1.runId settled later
      | none => planAttempts evidence remaining (freshAttempt .plan "plan") lastRejection
          attempt.1.runId settled later

/-- The surfaces that a plan left to research. -/
def unresolved (analysis : SurfaceAnalysis) : List ContractCoverage :=
  analysis.coverage.filter (·.status = .researchRequired)

/-- The security phase runs on an elevated surface when its role exists. -/
def runSecurity (config : PipelineConfig) (surface : Option SecuritySurface) : Bool :=
  surface = some .elevated && config.security

def stepPlan (config : PipelineConfig) (state : WorkflowState) (turns : List PlanTurn)
    (evidence : String) : Except StepError StepResult :=
  if config.planner then do
    let handoff ← planAttempts evidence config.plannerHandoffAttempts
      (stageAttempt state .plan "plan") none "" state turns
    let plan := handoff.plan
    let toPhase :=
      if (unresolved plan.surfaceAnalysis).isEmpty then
        if runSecurity config (some plan.securitySurface) then .security else .code
      else .research
    return {
      state := completeStage { handoff.settled with
        planSummary := handoff.text
        contractRequirements := plan.contractRequirements
        surfaceAnalysis := some plan.surfaceAnalysis
        effective := plan.complexity
        complexity := some plan.complexity
        securitySurface := some plan.securitySurface
        affectedFiles :=
          if plan.affectedFiles.isEmpty then state.affectedFiles else plan.affectedFiles }
      phase := .plan
      runId := handoff.runId
      text := handoff.text
      verdict := none
      plan := some plan
      transitions := [advanceTo config toPhase state.round, stopHere config state.round] }
  else .error (orchestrationError .emptyTask "" "plan phase requires a planner role")

/-! ## Research -/

/-- `SAFE_RESEARCH_ID`. -/
def safeResearchId : Regex := .sequence [.atStart, .one Regex.isAlnum,
  .rep true 0 (some 127) (.one fun x => Regex.isAlnum x || x == '.' || x == '_' || x == ':' ||
    x == '-'), .atEnd]

/-- `LIKELY_SECRET`. -/
def likelySecret : Regex := .choice [
  .seq (.literalI "bearer") (.plus Regex.space),
  .sequence [.literalI "api", .optional (.oneOf "_-"), .literalI "key", Regex.spaces,
    .oneOf ":="],
  .sequence [.literalI "password", Regex.spaces, .oneOf ":="],
  .sequence [.choice [.atStart, .one fun x => !Regex.isWord x], .literalI "sk-",
    .rep true 8 none (.one fun x => Regex.isAlnum x || x == '_' || x == '-')]]

def requirementsUnresolved (detail message : String) : StepError :=
  orchestrationError .requirementsUnresolved detail message

def safeReference (item : ContractCoverage) : Bool :=
  safeResearchId.test item.surfaceId && !likelySecret.test item.surfaceId &&
    item.contractIds.all fun id =>
      contractIndex.contains id && safeResearchId.test id && !likelySecret.test id

/-- `RESEARCH_MAX_QUESTIONS`. -/
def researchMaxQuestions : Nat := 256

/-- `RESEARCH_REQUEST_MAX_BYTES`. -/
def researchRequestMaxBytes : Nat := 64 * 1024

/-- The question that a research dispatch asks. -/
def researchQuery (showNumber : JsNumber → String) (items : List ContractCoverage) : String :=
  Json.stringify showNumber (.arr (items.map fun item => .obj [
    ("surfaceId", .str item.surfaceId), ("contractIds", .arr (item.contractIds.map .str))]))

/-- The intent to dispatch research, where there is a researcher and something to
ask. `destination` names the researcher's model. -/
def prepareResearch (config : PipelineConfig) (showNumber : JsNumber → String)
    (sha256 : String → String) (destination : String) (state : WorkflowState) :
    Except OrchestrationError (Option ResearchDispatchIntent) :=
  match state.phase, state.surfaceAnalysis with
  | .research, some analysis =>
      let items := unresolved analysis
      let query := researchQuery showNumber items
      if !config.researcher || items.isEmpty then .ok none
      else if items.length > researchMaxQuestions then .error ⟨.requirementsUnresolved, "research",
        "research question count exceeds the mandatory safety ceiling"⟩
      else if !items.all safeReference then .error ⟨.requirementsUnresolved, "research",
        "research coverage contains unsupported contract references"⟩
      else if byteLength query > researchRequestMaxBytes then .error ⟨.requirementsUnresolved,
        "research", "research request exceeds the mandatory safety ceiling"⟩
      else .ok (some ⟨"research:" ++ sha256 query, destination, sha256 query,
        items.map (·.surfaceId)⟩)
  | _, _ => .ok none

/-- One entry after research: covered when the research names it and every
contract has canonical evidence. -/
def resolveCoverage (turn : ResearchTurn) (item : ContractCoverage) : ContractCoverage :=
  if item.status = .researchRequired ∧ item.contractIds ≠ [] ∧
      item.contractIds.all (fun id => (turn.canonical id).isSome) ∧
      item.surfaceId ∈ turn.resolvedSurfaceIds then
    { item with
      status := .covered
      evidence := item.evidence ++
        item.contractIds.map (fun id =>
          "canonical:" ++ id ++ ":" ++ (turn.canonical id).getD "undefined") ++
        ["research:" ++ turn.digest]
      rationale := "resolved by bounded research corroborated by canonical contract evidence" }
  else item

@[simp] theorem resolveCoverage_surfaceId (turn : ResearchTurn) (item : ContractCoverage) :
    (resolveCoverage turn item).surfaceId = item.surfaceId := by
  unfold resolveCoverage
  split_ifs <;> rfl

/-- Research changes no surface of the analysis. -/
def resolveAnalysis (turn : ResearchTurn) (analysis : SurfaceAnalysis) : SurfaceAnalysis where
  projectType := analysis.projectType
  surfaces := analysis.surfaces
  coverage := analysis.coverage.map (resolveCoverage turn)
  coverage_unique := by
    simpa [Function.comp_def] using analysis.coverage_unique

def stepResearch (config : PipelineConfig) (state : WorkflowState) (turn : ResearchTurn) :
    Except StepError StepResult :=
  if !config.researcher then .error (requirementsUnresolved "research"
    "researcher is not configured; configure roles.researcher and resume")
  else match state.researchIntent, state.surfaceAnalysis with
    | none, _ => .error (requirementsUnresolved "research"
        "research dispatch was not durably prepared")
    | some _, none => .error (requirementsUnresolved "research"
        "research has no surface analysis")
    | some intent, some analysis => do
        let researchRunId := String.ofList (intent.queryHash.toList.take 32)
        require ((unresolved analysis).all safeReference) (requirementsUnresolved researchRunId
          "research coverage contains unsupported contract references")
        require (turn.queryHash == intent.queryHash &&
            (unresolved analysis).map (·.surfaceId) == intent.surfaceIds)
          (requirementsUnresolved "research"
            "research cursor no longer matches the checkpointed surface analysis")
        require (!likelySecret.test turn.summary) (requirementsUnresolved researchRunId
          "research summary failed the persistence secret guard")
        let resolved := resolveAnalysis turn analysis
        require (unresolved resolved).isEmpty (requirementsUnresolved researchRunId
          "research lacks canonical contract corroboration for one or more surfaces")
        return {
          state := { state with
            surfaceAnalysis := some resolved
            runIds := state.runIds ++ [researchRunId]
            stageMetrics := state.stageMetrics ++ [turn.metrics]
            researchIntent := none }
          phase := .research
          runId := researchRunId
          text := turn.summary
          verdict := none
          plan := none
          transitions := [
            advanceTo config (if runSecurity config state.securitySurface then .security
              else .code) state.round,
            stopHere config state.round] }

/-! ## Security, code and gates -/

def stepSecurity (config : PipelineConfig) (state : WorkflowState) (turn : RoleTurn) :
    Except StepError StepResult :=
  if config.security then
    let attempt := stageAttempt state .security "security" turn.fresh
    .ok {
      state := completeStage (settledStage { state with securityNotes := turn.text }
        attempt.1 attempt.2 turn.metrics)
      phase := .security
      runId := attempt.1.runId
      text := turn.text
      verdict := none
      plan := none
      transitions := [advanceTo config .code state.round, stopHere config state.round] }
  else .error (orchestrationError .emptyTask "" "security phase requires a security role")

def stepCode (config : PipelineConfig) (state : WorkflowState) (turn : RoleTurn) :
    Except StepError StepResult :=
  let attempt := stageAttempt state .code ("code:" ++ toString state.round) turn.fresh
  .ok {
    state := completeStage (settledStage { state with changeSummary := turn.text }
      attempt.1 attempt.2 turn.metrics)
    phase := .code
    runId := attempt.1.runId
    text := turn.text
    verdict := none
    plan := none
    transitions := [
      advanceTo config (if config.qualityGates then .gates else .review) state.round,
      reworkCode state.round, stopHere config state.round] }

/-- The report as the run's text shows it. -/
def formatGateReport (report : GateReport) : String :=
  "\n".intercalate (
    (if report.passed then "Declared project gates: PASS" else "Declared project gates: FAIL") ::
      report.results.map fun result =>
        "- " ++ result.name ++ ": " ++ if result.passed then "PASS" else "FAIL")

def stepGates (config : PipelineConfig) (state : WorkflowState) (runId : String)
    (report : GateReport) : Except StepError StepResult :=
  if config.qualityGates then
    .ok {
      state := { state with
        runIds := state.runIds ++ [runId]
        lastGateReport := some report }
      phase := .gates
      runId := runId
      text := formatGateReport report
      verdict := none
      plan := none
      transitions :=
        if report.passed then
          [advanceTo config .review state.round, reworkCode state.round,
            stopHere config state.round]
        else if state.round < config.maxRounds then
          [advanceTo config .code (state.round + 1), stopHere config state.round]
        else [settle state.round] }
  else .error (orchestrationError .emptyTask "" "gates phase requires config.qualityGates")

/-! ## Review -/

/-- The last call of `submit_verdict` decides what a reviewer turn captured. -/
def captureVerdict (detail : String) (expected : Option SurfaceAnalysis)
    (priorFindings : List VerdictIssue)
    (inventory : Option (List RemovedTestInventoryEntry)) (turn : ReviewTurn) :
    Option (Except OrchestrationError Verdict) :=
  turn.submissions.getLast?.map fun value =>
    parseVerdict value detail expected priorFindings inventory

/-- What the reviewer handed over, with the metrics of its last turn. -/
structure ReviewHandoff where
  text : String
  verdict : Verdict
  metrics : PipelineStageMetrics

/-- The reviewer turns, until one submits or the attempts are spent. `runId` is
the run id of the next turn. -/
def reviewAttempts (state : WorkflowState)
    (inventory : Option (List RemovedTestInventoryEntry)) (firstRunId : String) :
    Nat → (String → String) → List ReviewTurn → Except StepError ReviewHandoff
  | 0, _, _ => .error (orchestrationError .missingVerdict firstRunId
      "reviewer did not submit a verdict")
  | _ + 1, _, [] => .error .turnFailed
  | remaining + 1, runId, turn :: later =>
      match captureVerdict (runId turn.fresh) state.surfaceAnalysis
          (state.verdicts.flatMap (·.issues)) inventory turn with
      | some (.ok verdict) => .ok ⟨turn.text, verdict, turn.metrics⟩
      | some (.error error) => .error (.orchestration error)
      | none => reviewAttempts state inventory firstRunId remaining id later

/-- Verdicts that ask for more work. -/
def blockingVerdictCount (state : WorkflowState) : Nat :=
  (state.verdicts.filter fun verdict =>
    verdict.status = .changesRequested || verdict.status = .decompositionRequired).length

/-- The transitions after a verdict, with the escalation they settle on. -/
def reviewTransitions (config : PipelineConfig) (round blockingVerdicts : Nat)
    (status : VerdictStatus) : Option EscalationSignal × List AvailableTransition :=
  match status with
  | .approved => (none, [settle round, reworkCode round])
  | .decompositionRequired =>
      (some ⟨true, .roleRequested, blockingVerdicts⟩, [settle round])
  | .changesRequested =>
      if blockingVerdicts ≥ 2 then
        (some ⟨true, .blockingVerdicts, blockingVerdicts⟩, [settle round])
      else if round < config.maxRounds then
        (none, [⟨.advance, config.onChangesRequested = .advance, .code, round + 1⟩,
          ⟨.stop, config.onChangesRequested = .stop, .done, round⟩])
      else (some ⟨false, .capExhausted, blockingVerdicts⟩, [settle round])

def stepReview (config : PipelineConfig) (state : WorkflowState) (turns : List ReviewTurn)
    (inventory : Option (List RemovedTestInventoryEntry)) : Except StepError StepResult := do
  let step := "review:" ++ toString state.round
  let attempt := stageAttempt state .review step ((turns.head?.map (·.fresh)).getD "")
  let handoff ← reviewAttempts state inventory attempt.1.runId reviewSubmissionAttempts
    (fun _ => attempt.1.runId) turns
  let recorded := completeStage (settledStage
    { state with verdicts := state.verdicts ++ [handoff.verdict] }
    attempt.1 attempt.2 handoff.metrics)
  let (escalation, transitions) := reviewTransitions config state.round
    (blockingVerdictCount recorded) handoff.verdict.status
  return {
    state := { recorded with escalation := escalation.orElse fun _ => recorded.escalation }
    phase := .review
    runId := attempt.1.runId
    text := handoff.text
    verdict := some handoff.verdict
    plan := none
    transitions := transitions }

/-- Run the pending role turn of the state's phase. -/
def step (config : PipelineConfig) (state : WorkflowState) (outcome : StepOutcome) :
    Except StepError StepResult :=
  match state.phase, outcome with
  | .plan, .plan turns evidence => stepPlan config state turns evidence
  | .research, .research turn => stepResearch config state turn
  | .security, .security turn => stepSecurity config state turn
  | .code, .code turn => stepCode config state turn
  | .gates, .gates runId report => stepGates config state runId report
  | .review, .review turns inventory => stepReview config state turns inventory
  | .done, _ => .error .completed
  | _, _ => .error .turnFailed

/-! ## What a step does -/

/-- The phases that a step of the phase offers to go on to. -/
def successors : WorkflowPhase → List WorkflowPhase
  | .plan => [.research, .security, .code, .done]
  | .research => [.security, .code, .done]
  | .security => [.code, .done]
  | .code => [.gates, .review, .code, .done]
  | .gates => [.review, .code, .done]
  | .review => [.code, .done]
  | .done => []

/-- The gate report that stands after a step with the outcome. -/
def reportAfter (state : WorkflowState) : StepOutcome → Option GateReport
  | .gates _ report => some report
  | _ => state.lastGateReport

/-- The effect of a step on the course of the run. -/
structure StepSpec (state : WorkflowState) (outcome : StepOutcome) (result : StepResult) :
    Prop where
  control : result.state.control = { state.control with
    verdicts := state.verdicts ++ result.verdict.toList
    lastGateReport := reportAfter state outcome }
  phase : result.phase = state.phase
  reviewed : result.verdict.isSome = true ↔ state.phase = .review
  offers : ∀ t ∈ result.transitions, t.toPhase ∈ successors state.phase

section StepSpec

variable {config : PipelineConfig} {state : WorkflowState} {result : StepResult}

theorem planAttempts_settled {evidence runId : String} {remaining : Nat}
    {attemptOf : String → ActiveWorkflowStage × Bool}
    {lastRejection : Option OrchestrationError} {turns : List PlanTurn} {handoff : PlanHandoff}
    (h : planAttempts evidence remaining attemptOf lastRejection runId state turns =
      .ok handoff) : handoff.settled.control = state.control := by
  induction remaining generalizing attemptOf lastRejection runId state turns with
  | zero => simp [planAttempts] at h
  | succ remaining ih =>
      cases turns with
      | nil => simp [planAttempts] at h
      | cons turn later =>
          simp only [planAttempts] at h
          split at h
          · obtain rfl := Except.ok.inj h
            rfl
          · exact (ih h).trans (settledStage_control ..)
          · exact (ih h).trans (settledStage_control ..)

theorem stepPlan_spec {turns : List PlanTurn} {evidence : String} (phase : state.phase = .plan)
    (h : stepPlan config state turns evidence = .ok result) :
    StepSpec state (.plan turns evidence) result := by
  unfold stepPlan at h
  split_ifs at h
  simp only [bind_eq_ok] at h
  obtain ⟨handoff, hhandoff, hpure⟩ := h
  obtain rfl := pure_eq_ok.mp hpure
  have settled := planAttempts_settled hhandoff
  refine ⟨?_, phase.symm, by simp [phase], ?_⟩
  · simpa [WorkflowState.control, reportAfter, completeStage] using settled
  · intro t ht
    simp only [List.mem_cons, List.not_mem_nil, or_false] at ht
    rcases ht with rfl | rfl
    · simp only [advanceTo, phase, successors]
      split_ifs <;> decide
    · simp [stopHere, phase, successors]

theorem stepResearch_spec {turn : ResearchTurn} (phase : state.phase = .research)
    (h : stepResearch config state turn = .ok result) :
    StepSpec state (.research turn) result := by
  unfold stepResearch at h
  cases configured : config.researcher
  · simp [configured] at h
  simp only [configured, Bool.not_true, Bool.false_eq_true, if_false] at h
  split at h
  · cases h
  · cases h
  · simp only [bind_eq_ok, require_eq_ok] at h
    obtain ⟨_, _, _, _, _, _, _, _, hpure⟩ := h
    obtain rfl := pure_eq_ok.mp hpure
    refine ⟨?_, phase.symm, by simp [phase], ?_⟩
    · simp [WorkflowState.control, reportAfter]
    · intro t ht
      simp only [List.mem_cons, List.not_mem_nil, or_false] at ht
      rcases ht with rfl | rfl
      · simp only [advanceTo, phase, successors]
        split_ifs <;> decide
      · simp [stopHere, phase, successors]

theorem stepSecurity_spec {turn : RoleTurn} (phase : state.phase = .security)
    (h : stepSecurity config state turn = .ok result) :
    StepSpec state (.security turn) result := by
  unfold stepSecurity at h
  split_ifs at h
  obtain rfl := Except.ok.inj h
  refine ⟨?_, phase.symm, by simp [phase], ?_⟩
  · simp [WorkflowState.control, reportAfter, completeStage, settledStage]
  · intro t ht
    simp only [List.mem_cons, List.not_mem_nil, or_false] at ht
    rcases ht with rfl | rfl <;> simp [advanceTo, stopHere, phase, successors]

theorem stepCode_spec {turn : RoleTurn} (phase : state.phase = .code)
    (h : stepCode config state turn = .ok result) : StepSpec state (.code turn) result := by
  unfold stepCode at h
  obtain rfl := Except.ok.inj h
  refine ⟨?_, phase.symm, by simp [phase], ?_⟩
  · simp [WorkflowState.control, reportAfter, completeStage, settledStage]
  · intro t ht
    simp only [List.mem_cons, List.not_mem_nil, or_false] at ht
    rcases ht with rfl | rfl | rfl
    · simp only [advanceTo, phase, successors]
      split_ifs <;> decide
    · simp [reworkCode, phase, successors]
    · simp [stopHere, phase, successors]

theorem stepGates_spec {runId : String} {report : GateReport} (phase : state.phase = .gates)
    (h : stepGates config state runId report = .ok result) :
    StepSpec state (.gates runId report) result := by
  unfold stepGates at h
  split_ifs at h
  all_goals
    obtain rfl := Except.ok.inj h
    refine ⟨by simp [WorkflowState.control, reportAfter], phase.symm, by simp [phase], ?_⟩
    intro t ht
    simp only [List.mem_cons, List.not_mem_nil, or_false] at ht
    simp only [phase, successors]
  · rcases ht with rfl | rfl | rfl <;> simp [advanceTo, reworkCode, stopHere]
  · rcases ht with rfl | rfl <;> simp [advanceTo, stopHere]
  · simp [ht, settle]

theorem reviewTransitions_offers {round blockingVerdicts : Nat} {status : VerdictStatus}
    {t : AvailableTransition}
    (h : t ∈ (reviewTransitions config round blockingVerdicts status).2) :
    t.toPhase ∈ successors .review := by
  unfold reviewTransitions at h
  simp only [successors, List.mem_cons, List.not_mem_nil, or_false]
  split at h
  · simp only [List.mem_cons, List.not_mem_nil, or_false] at h
    rcases h with rfl | rfl <;> simp [settle, reworkCode]
  · simp_all [settle]
  · split_ifs at h <;> simp only [List.mem_cons, List.not_mem_nil, or_false] at h
    · simp [h, settle]
    · rcases h with rfl | rfl <;> simp
    · simp [h, settle]

theorem stepReview_spec {turns : List ReviewTurn}
    {inventory : Option (List RemovedTestInventoryEntry)} (phase : state.phase = .review)
    (h : stepReview config state turns inventory = .ok result) :
    StepSpec state (.review turns inventory) result := by
  simp only [stepReview, bind_eq_ok] at h
  obtain ⟨handoff, _, hpure⟩ := h
  obtain rfl := pure_eq_ok.mp hpure
  refine ⟨?_, phase.symm, by simp [phase], ?_⟩
  · simp [WorkflowState.control, reportAfter, completeStage, settledStage]
  · intro t ht
    rw [phase]
    exact reviewTransitions_offers ht

/-- Every step that succeeds has the effect of its phase. -/
theorem step_spec {outcome : StepOutcome} (h : step config state outcome = .ok result) :
    StepSpec state outcome result := by
  unfold step at h
  split at h
  case h_1 phase => exact stepPlan_spec phase h
  case h_2 phase => exact stepResearch_spec phase h
  case h_3 phase => exact stepSecurity_spec phase h
  case h_4 phase => exact stepCode_spec phase h
  case h_5 phase => exact stepGates_spec phase h
  case h_6 phase => exact stepReview_spec phase h
  all_goals cases h

end StepSpec

end AdCoder.Orchestration
