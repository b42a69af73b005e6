import AdCoder.Orchestration.SessionRuns
import AdCoder.ProjectOperations.LdoArtifact

/-!
# The workflow state of imported work

An accepted artifact becomes the state in which a native session goes on. The state is
compared with the edge that the session offers after the last stage the artifact
recorded.
-/

namespace AdCoder.ProjectOperations

open Foundation Orchestration

/-! ## The imported state -/

/-- The members of the object that a property holds. -/
def members (name : String) (fields : Fields) : Fields :=
  match Json.lookup name fields with
  | some (.obj inner) => inner
  | _ => []

def isTerminal (artifact : Fields) (kind : LdoArtifactKind) : Bool :=
  kind = .run && isText "completed" (Json.lookup "status" artifact)

/-- The first phase that is left to run. -/
def incomplete (artifact : Fields) (kind : LdoArtifactKind) : Option WorkflowPhase :=
  let completed := members "completed" artifact
  if isTerminal artifact kind then none
  else if kind = .plan then some .code
  else if (Json.lookup "coder" completed).isNone then some .code
  else if (Json.lookup "reviewer1" completed).isNone then some .review
  else if isText "approved" (reviewStatus "reviewer1" completed) then none
  else if (Json.lookup "coderFix1" completed).isNone then some .code
  else if (Json.lookup "reviewer2" completed).isNone then some .review
  else none

/-- `a ?? b`. -/
def nullish (a b : Option Json) : Option Json :=
  match a with
  | none | some .null => b
  | some value => some value

section Import

variable (host : LdoHost)

/-- `String(value) as T`: what was accepted reads as one of the values. -/
def readAs {α : Type} (ofText? : String → Option α) (value : Option Json) :
    Except LdoFailure α := do
  let text ← displayed host value
  match ofText? text with
  | some result => return result
  | none => .error .type

def severity (value : Option Json) : IssueSeverity :=
  if isText "critical" value then .blocker
  else if isText "major" value then .major
  else .minor

def importedIssue (item : Json) : Except LdoFailure VerdictIssue := do
  let issue := match item with
    | .obj fields => fields
    | _ => []
  let file ← displayed host (Json.lookup "file" issue)
  let what ← displayed host (Json.lookup "what" issue)
  let suggestion ← displayed host (Json.lookup "suggestion" issue)
  return {
    severity := severity (Json.lookup "severity" issue)
    what := file ++ ": " ++ what ++ " (" ++ suggestion ++ ")"
    location := none
    closureCriterion := none
    findingId := none
    resolution := none
    evidence := none }

def importedIssues : Option Json → Except LdoFailure (List VerdictIssue)
  | some (.arr items) => items.mapM (importedIssue host)
  | _ => .error .type

def importedVerdict (review : Fields) : Except LdoFailure Verdict := do
  let status ← readAs host VerdictStatus.ofText? (Json.lookup "status" review)
  let issues ← importedIssues host (Json.lookup "issues" review)
  let summary ← displayed host
    (nullish (Json.lookup "summary" review) (some (.str "Imported LDO review")))
  return ⟨status, issues, summary, none, none⟩

/-- Text after its title; what is undefined is printed so. -/
def quoted (title : String) (value : Option Json) : String :=
  title ++ " (quoted JSON data):\n" ++
    (value.map (Json.stringify host.showNumber)).getD "undefined"

def importedNotes (report : Option Json) : String :=
  if isNull report then "" else quoted host "Trusted imported LDO security report" report

def importedSummary (completed : Fields) : String :=
  let first := Json.lookup "coder" completed
  let fix := Json.lookup "coderFix1" completed
  if fix.isNone && first.isNone then ""
  else quoted host "Trusted imported LDO coder result" (nullish fix first)

/-- The texts of `plan.contract_requirements`, if it is an array. -/
def importedRequirements (plan : Fields) : Except LdoFailure (List String) :=
  match Json.lookup "contract_requirements" plan with
  | some (.arr items) => items.mapM (display host)
  | _ => .ok []

/-- The state of a plan that nothing was done about, before its phase is known. -/
def planState (plan : Fields) (complexity : Complexity) : WorkflowState where
  phase := .done
  round := 1
  planSummary := quoted host "Trusted imported LDO plan" (some (.obj plan))
  contractRequirements := []
  surfaceAnalysis := none
  affectedFiles := []
  researchIntent := none
  changeSummary := ""
  complexity := none
  securitySurface := none
  securityNotes := ""
  preComplexity := complexity
  effective := complexity
  verdicts := []
  runIds := []
  stageMetrics := []
  lastStageFailure := none
  activeStage := none
  lastGateReport := none
  done := true
  approved := false
  escalation := none

def isTrue : Option Json → Bool
  | some (.bool value) => value
  | _ => false

/-- The name of the latest review, if there is one. -/
def latestReview (completed : Fields) : Option Fields :=
  match nullish (Json.lookup "reviewer2" completed) (Json.lookup "reviewer1" completed) with
  | some (.obj review) => some review
  | _ => none

def importedState (artifact : Fields) (kind : LdoArtifactKind) :
    Except LdoFailure WorkflowState := do
  let plan := members "plan" artifact
  let completed := members "completed" artifact
  let latest := latestReview completed
  match incomplete artifact kind with
  | none => do
      let complexity ← readAs host Complexity.ofText? (Json.lookup "complexity" plan)
      return { planState host plan complexity with
        approved := isTrue (Json.lookup "approved" artifact) ||
          isText "approved" (latest.bind (Json.lookup "status")) }
  | some phase => do
      let verdicts ← (latest.toList).mapM (importedVerdict host)
      let requirements ← importedRequirements host plan
      let complexity ← readAs host Complexity.ofText? (Json.lookup "complexity" plan)
      return { planState host plan complexity with
        phase := phase
        round := if (Json.lookup "reviewer1" completed).isNone then 1 else 2
        contractRequirements := requirements
        changeSummary := importedSummary host completed
        securityNotes := importedNotes host (Json.lookup "security" artifact)
        verdicts := verdicts
        done := false
        approved := false }

end Import

/-! ## The native session -/

/-- A stage that an artifact records, with what decides the edge after it. -/
inductive LdoStage where
  | plan (surface : SecuritySurface)
  | security
  | code (round : Nat)
  | review (round : Nat) (status : VerdictStatus)

namespace LdoStage

def round : LdoStage → Nat
  | plan _ | security => 1
  | code round | review round _ => round

/-- The verdicts that ask for more work: every earlier round was sent back. -/
def blocking (round : Nat) (status : VerdictStatus) : Nat :=
  (round - 1) + if status = .approved then 0 else 1

/-- The edges that a native session offers after the stage. -/
def transitions (config : PipelineConfig) : LdoStage → List AvailableTransition
  | plan surface =>
      [advanceTo config (if runSecurity config (some surface) then .security else .code) 1,
        stopHere config 1]
  | security => [advanceTo config .code 1, stopHere config 1]
  | code round =>
      [advanceTo config (if config.qualityGates then .gates else .review) round,
        reworkCode round, stopHere config round]
  | review round status =>
      (reviewTransitions config round (blocking round status) status).2

/-- The edge that goes on, or the one that settles where none does. -/
def next (config : PipelineConfig) (stage : LdoStage) : AvailableTransition :=
  ((stage.transitions config).find? fun edge => edge.kind = .advance).getD (settle stage.round)

end LdoStage

/-- What a step of the session did is the stage, in the stage's round. -/
inductive Performs (state : WorkflowState) (result : StepResult) : LdoStage → Prop
  | plan {plan : Plan} (phase : state.phase = .plan) (round : state.round = 1)
      (planned : result.plan = some plan)
      (resolved : (unresolved plan.surfaceAnalysis).isEmpty = true) :
      Performs state result (.plan plan.securitySurface)
  | security (phase : state.phase = .security) (round : state.round = 1) :
      Performs state result .security
  | code (phase : state.phase = .code) : Performs state result (.code state.round)
  | review {verdict : Verdict} (phase : state.phase = .review)
      (reviewed : result.verdict = some verdict)
      (sentBack : blockingVerdictCount result.state =
        LdoStage.blocking state.round verdict.status) :
      Performs state result (.review state.round verdict.status)

section Native

variable {config : PipelineConfig} {state : WorkflowState} {outcome : StepOutcome}
  {result : StepResult}

end Native

end AdCoder.ProjectOperations
