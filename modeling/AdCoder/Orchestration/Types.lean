import AdCoder.Foundation.Json
import AdCoder.Foundation.Runs

/-!
# Shared orchestration data

The closed vocabularies of plans, verdicts and workflow phases, with the
structures that carry them.
-/

namespace AdCoder.Orchestration

open Foundation

inductive OrchestrationErrorCode where
  | missingPlan
  | planNotJson
  | requirementsUnresolved
  | missingVerdict
  | malformedVerdict
  | malformedPlan
  | invalidMaxRounds
  | emptyTask
  deriving DecidableEq

def OrchestrationErrorCode.text : OrchestrationErrorCode → String
  | missingPlan => "missing_plan"
  | planNotJson => "plan_not_json"
  | requirementsUnresolved => "requirements_unresolved"
  | missingVerdict => "missing_verdict"
  | malformedVerdict => "malformed_verdict"
  | malformedPlan => "malformed_plan"
  | invalidMaxRounds => "invalid_max_rounds"
  | emptyTask => "empty_task"

structure OrchestrationError where
  code : OrchestrationErrorCode
  detail : String
  message : String
  deriving DecidableEq

inductive Complexity where
  | trivial
  | medium
  | complex
  deriving DecidableEq

inductive SecuritySurface where
  | none
  | low
  | elevated
  deriving DecidableEq

inductive ContractCoverageStatus where
  | covered
  | notApplicable
  | researchRequired
  deriving DecidableEq

structure SurfaceAnalysisEntry where
  id : String
  name : String
  rationale : String
  deriving DecidableEq

structure ContractCoverage where
  surfaceId : String
  status : ContractCoverageStatus
  contractIds : List String
  evidence : List String
  rationale : String
  deriving DecidableEq

/-- A planner's governance artifact: no two entries cover one surface. -/
structure SurfaceAnalysis where
  projectType : String
  surfaces : List SurfaceAnalysisEntry
  coverage : List ContractCoverage
  coverage_unique : (coverage.map (·.surfaceId)).Nodup
  deriving DecidableEq

structure Plan where
  complexity : Complexity
  securitySurface : SecuritySurface
  summary : String
  contractRequirements : List String
  affectedFiles : List String
  surfaceAnalysis : SurfaceAnalysis
  deriving DecidableEq

inductive VerdictStatus where
  | approved
  | changesRequested
  | decompositionRequired
  deriving DecidableEq

inductive IssueSeverity where
  | blocker
  | major
  | minor
  deriving DecidableEq

inductive Resolution where
  | closed
  | remains
  | new
  deriving DecidableEq

structure VerdictIssue where
  severity : IssueSeverity
  what : String
  location : Option String
  closureCriterion : Option String
  findingId : Option String
  resolution : Option Resolution
  evidence : Option String
  deriving DecidableEq

structure ReviewCoverage where
  surfaceId : String
  contractIds : List String
  evidence : List String
  deriving DecidableEq

inductive TestFate where
  | restored
  | moved
  deriving DecidableEq

structure RemovedTestBehavior where
  removedTestId : String
  behavior : String
  destination : String
  fate : TestFate
  deriving DecidableEq

structure RemovedTestInventoryEntry where
  removedTestId : String
  path : String
  line : Nat
  text : String
  deriving DecidableEq

structure Verdict where
  status : VerdictStatus
  issues : List VerdictIssue
  summary : String
  coverage : Option (List ReviewCoverage)
  removedTests : Option (List RemovedTestBehavior)
  deriving DecidableEq

namespace VerdictStatus

def text : VerdictStatus → String
  | approved => "approved"
  | changesRequested => "changes_requested"
  | decompositionRequired => "decomposition_required"

def ofText? (s : String) : Option VerdictStatus :=
  if s = "approved" then some approved
  else if s = "changes_requested" then some changesRequested
  else if s = "decomposition_required" then some decompositionRequired
  else none

theorem ofText?_text {s : String} {status : VerdictStatus} (h : ofText? s = some status) :
    status.text = s := by
  unfold ofText? at h
  split_ifs at h <;> cases h <;> simp_all [text]

end VerdictStatus

namespace IssueSeverity

def text : IssueSeverity → String
  | blocker => "blocker"
  | major => "major"
  | minor => "minor"

def ofText? (s : String) : Option IssueSeverity :=
  if s = "blocker" then some blocker
  else if s = "major" then some major
  else if s = "minor" then some minor
  else none

theorem ofText?_text {s : String} {severity : IssueSeverity} (h : ofText? s = some severity) :
    severity.text = s := by
  unfold ofText? at h
  split_ifs at h <;> cases h <;> simp_all [text]

end IssueSeverity

namespace Resolution

def text : Resolution → String
  | closed => "closed"
  | remains => "remains"
  | new => "new"

def ofText? (s : String) : Option Resolution :=
  if s = "closed" then some closed
  else if s = "remains" then some remains
  else if s = "new" then some new
  else none

theorem ofText?_text {s : String} {resolution : Resolution} (h : ofText? s = some resolution) :
    resolution.text = s := by
  unfold ofText? at h
  split_ifs at h <;> cases h <;> simp_all [text]

end Resolution

end AdCoder.Orchestration
