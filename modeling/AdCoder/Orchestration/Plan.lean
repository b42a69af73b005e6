import AdCoder.Orchestration.Types

/-!
# Validation of a submitted plan

`parsePlan` re-validates planner output and its surface analysis. A missing
analysis under a byte limit is measured as `undefined`, which is a TypeError and
not a refusal.
-/

namespace AdCoder.Orchestration

open Foundation Foundation.Regex

namespace Complexity

def ofText? (s : String) : Option Complexity :=
  if s = "trivial" then some trivial
  else if s = "medium" then some medium
  else if s = "complex" then some complex
  else Option.none

end Complexity

namespace SecuritySurface

def ofText? (s : String) : Option SecuritySurface :=
  if s = "none" then some none
  else if s = "low" then some low
  else if s = "elevated" then some elevated
  else Option.none

end SecuritySurface

namespace ContractCoverageStatus

def ofText? (s : String) : Option ContractCoverageStatus :=
  if s = "covered" then some covered
  else if s = "not_applicable" then some notApplicable
  else if s = "research_required" then some researchRequired
  else none

end ContractCoverageStatus

/-- The ids of `CONTRACT_INDEX`, in order. -/
def contractIndex : List String := [
  "architecture:headless-first", "architecture:optional-workflow-modules",
  "architecture:programmatic-reachability", "architecture:independent-role-delegation",
  "cli:thin-front", "cli:derived-help", "cli:single-registry", "config:configurable",
  "config:efficient-defaults", "config:resource-limits", "documentation:human-first",
  "documentation:architecture-map", "documentation:cold-reader-review",
  "documentation:periodic-audit", "operation-modes:manual-authority",
  "operation-modes:auto-provenance", "quality:clean-check", "quality:biome",
  "quality:project-health-audit", "quality:test-pinned-decomposition",
  "decomposition:diagnose", "decomposition:boundary", "decomposition:behavior-preserving",
  "product-change:user-outcome", "product-change:surface-map", "product-change:close-loop",
  "errors:typed-actionable", "errors:safe-projection", "compatibility:public-surfaces",
  "compatibility:semver-release", "security:trusted-project-prompts",
  "tool-observability:headless-stream", "tool-observability:safe-projection",
  "tool-observability:truthful-lifecycle", "ui-responsiveness:input-control",
  "ui-responsiveness:isolated-interrupt", "ui-responsiveness:bounded-watch"]

/-- Names that every object inherits, which `in` finds as well. -/
def inheritedNames : List String := [
  "constructor", "toString", "toLocaleString", "valueOf", "hasOwnProperty", "isPrototypeOf",
  "propertyIsEnumerable", "__proto__", "__defineGetter__", "__defineSetter__",
  "__lookupGetter__", "__lookupSetter__"]

/-- `id in CONTRACT_INDEX`. -/
def inContractIndex (id : String) : Bool :=
  contractIndex.contains id || inheritedNames.contains id

/-- Limits as configured; zero means no limit. -/
structure SurfaceAnalysisLimits where
  maxItems : JsNumber
  maxTextBytes : JsNumber
  maxAggregateBytes : JsNumber
  maxDepth : JsNumber
  deriving DecidableEq

/-- `DEFAULT_SURFACE_ANALYSIS_LIMITS`. -/
def defaultSurfaceAnalysisLimits : SurfaceAnalysisLimits := ⟨0, 0, 0, 0⟩

/-- Limits that passed validation. -/
structure SurfaceAnalysisBounds where
  maxItems : Nat
  maxTextBytes : Nat
  maxAggregateBytes : Nat
  maxDepth : Nat
  deriving DecidableEq

/-- An exception of the validator. -/
inductive PlanFailure where
  | orchestration (error : OrchestrationError)
  | typeError
  deriving DecidableEq

def malformedPlan (detail message : String) : PlanFailure :=
  .orchestration ⟨.malformedPlan, detail, message⟩

def validateLimit (name : String) : JsNumber → Except PlanFailure Nat
  | .finite q =>
      if (JsNumber.finite q).isSafeInteger ∧ 0 ≤ q then .ok q.num.toNat
      else .error (malformedPlan name "surface limits must be non-negative integers")
  | _ => .error (malformedPlan name "surface limits must be non-negative integers")

def validateLimits (limits : SurfaceAnalysisLimits) :
    Except PlanFailure SurfaceAnalysisBounds := do
  let maxItems ← validateLimit "maxItems" limits.maxItems
  let maxTextBytes ← validateLimit "maxTextBytes" limits.maxTextBytes
  let maxAggregateBytes ← validateLimit "maxAggregateBytes" limits.maxAggregateBytes
  let maxDepth ← validateLimit "maxDepth" limits.maxDepth
  return ⟨maxItems, maxTextBytes, maxAggregateBytes, maxDepth⟩

mutual
def depthOf (depth : Nat) : Json → Nat
  | .arr items => depthOfItems depth depth items
  | .obj fields => depthOfFields depth depth fields
  | _ => depth

def depthOfItems (depth deepest : Nat) : List Json → Nat
  | [] => deepest
  | item :: rest => depthOfItems depth (max deepest (depthOf (depth + 1) item)) rest

def depthOfFields (depth deepest : Nat) : List (String × Json) → Nat
  | [] => deepest
  | (_, value) :: rest => depthOfFields depth (max deepest (depthOf (depth + 1) value)) rest
end

/-- `limit === 0 || size <= limit`. -/
def withinLimit (limit size : Nat) : Bool := limit == 0 || size ≤ limit

def nonEmptyBounded (maxTextBytes : Nat) : Option Json → Option String
  | some (.str s) =>
      if trim s ≠ "" ∧ withinLimit maxTextBytes (byteLength s) then some s else none
  | _ => none

/-- An array whose every element is a bounded non-empty string. -/
def boundedTexts (maxTextBytes : Nat) : List Json → Option (List String)
  | [] => some []
  | item :: rest => do
      let text ← nonEmptyBounded maxTextBytes (some item)
      let later ← boundedTexts maxTextBytes rest
      return text :: later

section SurfaceAnalysis

variable (detail : String) (bounds : SurfaceAnalysisBounds)

/-- The `bad` of the validator. -/
def badPlan {α : Type} (message : String) : Except PlanFailure α :=
  .error (malformedPlan detail message)

def requiredText (place field : String) (entry : List (String × Json)) :
    Except PlanFailure String :=
  match nonEmptyBounded bounds.maxTextBytes (Json.lookup field entry) with
  | some text => .ok text
  | none => badPlan detail (place ++ "." ++ field ++ " must be a non-empty string")

def requiredTexts (place field : String) (entry : List (String × Json)) :
    Except PlanFailure (List String) :=
  let refused := badPlan detail (place ++ "." ++ field ++ " must be bounded non-empty strings")
  match Json.lookup field entry with
  | some (.arr items) =>
      if withinLimit bounds.maxItems items.length then
        match boundedTexts bounds.maxTextBytes items with
        | some texts => .ok texts
        | none => refused
      else refused
  | _ => refused

def parseSurface (index : Nat) (item : Json) : Except PlanFailure SurfaceAnalysisEntry :=
  let place := "surfaces[" ++ toString index ++ "]"
  match item with
  | .obj entry => do
      let id ← requiredText detail bounds place "id" entry
      let name ← requiredText detail bounds place "name" entry
      let rationale ← requiredText detail bounds place "rationale" entry
      return ⟨id, name, rationale⟩
  | _ => badPlan detail (place ++ " is not an object")

def parseCoverageStatus (place : String) (entry : List (String × Json)) :
    Except PlanFailure ContractCoverageStatus :=
  match (Json.asString? (Json.lookup "status" entry)).bind ContractCoverageStatus.ofText? with
  | some status => .ok status
  | none => badPlan detail
      (place ++ ".status must be one of covered, not_applicable, research_required")

def parsePlannedCoverage (index : Nat) (item : Json) : Except PlanFailure ContractCoverage :=
  let place := "coverage[" ++ toString index ++ "]"
  match item with
  | .obj entry => do
      let surfaceId ← requiredText detail bounds place "surfaceId" entry
      let status ← parseCoverageStatus detail place entry
      let rationale ← requiredText detail bounds place "rationale" entry
      let contractIds ← requiredTexts detail bounds place "contractIds" entry
      let evidence ← requiredTexts detail bounds place "evidence" entry
      require (!(status = .covered && (contractIds.isEmpty || evidence.isEmpty)))
        (malformedPlan detail
          (place ++ " is \"covered\" and requires contractIds and evidence"))
      require (!(status = .researchRequired && contractIds.isEmpty)) (malformedPlan detail
        (place ++ ".contractIds must be non-empty when status is \"research_required\"; resubmit with canonical contract IDs"))
      let unknown := contractIds.filter (!inContractIndex ·)
      require unknown.isEmpty (malformedPlan detail
        (place ++ ".contractIds contains " ++ toString unknown.length ++
          " unknown id(s); known ids are " ++ ", ".intercalate contractIndex))
      require (!(status = .notApplicable && (!contractIds.isEmpty || evidence.isEmpty)))
        (malformedPlan detail
          (place ++ " is \"not_applicable\" and requires evidence and no contracts"))
      require (!(status = .researchRequired && evidence.isEmpty)) (malformedPlan detail
        (place ++ " is \"research_required\" and requires evidence of the gap"))
      return ⟨surfaceId, status, contractIds, evidence, rationale⟩
  | _ => badPlan detail (place ++ " is not an object")

/-- The entries of an array, each parsed at its index. -/
def parseEntries {α : Type} (parse : Nat → Json → Except PlanFailure α) :
    Nat → List Json → Except PlanFailure (List α)
  | _, [] => .ok []
  | index, item :: rest => do
      let entry ← parse index item
      let later ← parseEntries parse (index + 1) rest
      return entry :: later

def parseSurfaces (value : Option Json) : Except PlanFailure (List SurfaceAnalysisEntry) :=
  let refused := badPlan detail "surfaceAnalysis.surfaces exceeds the configured item limit"
  match value with
  | some (.arr items) =>
      if items.isEmpty || !withinLimit bounds.maxItems items.length then refused
      else parseEntries (parseSurface detail bounds) 0 items
  | _ => refused

def parsePlannedCoverages (surfaces : Nat) (value : Option Json) :
    Except PlanFailure (List ContractCoverage) :=
  let refused := badPlan detail "coverage must contain exactly one entry per surface"
  match value with
  | some (.arr items) =>
      if items.length ≠ surfaces || !withinLimit bounds.maxItems items.length then refused
      else parseEntries (parsePlannedCoverage detail bounds) 0 items
  | _ => refused

def parseSurfaceAnalysis (format : NumberFormat) (value : Option Json) :
    Except PlanFailure SurfaceAnalysis := do
  match value with
  | none =>
      if bounds.maxAggregateBytes > 0 then .error .typeError
      else badPlan detail "plan.surfaceAnalysis must be an object"
  | some value => do
      require (withinLimit bounds.maxAggregateBytes (byteLength (value.stringify format.print)))
        (malformedPlan detail "surfaceAnalysis exceeds aggregate byte limit")
      require (withinLimit bounds.maxDepth (depthOf 0 value))
        (malformedPlan detail "surfaceAnalysis exceeds nesting limit")
      match value with
      | .obj record =>
          match nonEmptyBounded bounds.maxTextBytes (Json.lookup "projectType" record) with
          | none => badPlan detail "surfaceAnalysis.projectType is required"
          | some projectType => do
              let surfaces ← parseSurfaces detail bounds (Json.lookup "surfaces" record)
              require ((surfaces.map (·.id)).dedup.length == surfaces.length)
                (malformedPlan detail "surface ids must be unique")
              let coverage ← parsePlannedCoverages detail bounds surfaces.length
                (Json.lookup "coverage" record)
              if unique : (coverage.map (·.surfaceId)).Nodup ∧
                  coverage.all fun item => (surfaces.map (·.id)).contains item.surfaceId then
                return ⟨projectType, surfaces, coverage, unique.1⟩
              else badPlan detail "coverage surfaceIds must uniquely match surfaces"
      | _ => badPlan detail "plan.surfaceAnalysis must be an object"

end SurfaceAnalysis

/-- An optional array of non-empty strings, empty when absent. -/
def optionalTexts (detail field : String) (record : List (String × Json)) :
    Except PlanFailure (List String) :=
  let refused := badPlan detail ("plan." ++ field ++ " must be an array of non-empty strings")
  match Json.lookup field record with
  | none => .ok []
  | some (.arr items) =>
      match boundedTexts 0 items with
      | some texts => .ok texts
      | none => refused
  | some _ => refused

def parsePlan (format : NumberFormat) (value : Json) (detail : String)
    (limits : SurfaceAnalysisLimits) : Except PlanFailure Plan := do
  let bounds ← validateLimits limits
  match value with
  | .obj record =>
      match (Json.asString? (Json.lookup "complexity" record)).bind Complexity.ofText? with
      | none => badPlan detail "plan.complexity must be one of trivial, medium, complex"
      | some complexity =>
          match (Json.asString? (Json.lookup "securitySurface" record)).bind
              SecuritySurface.ofText? with
          | none => badPlan detail "plan.securitySurface must be one of none, low, elevated"
          | some securitySurface =>
              match Json.asString? (Json.lookup "summary" record) with
              | none => badPlan detail "plan.summary must be a string"
              | some summary => do
                  let contractRequirements ← optionalTexts detail "contractRequirements" record
                  let affectedFiles ← optionalTexts detail "affectedFiles" record
                  let surfaceAnalysis ← parseSurfaceAnalysis detail bounds format
                    (Json.lookup "surfaceAnalysis" record)
                  return ⟨complexity, securitySurface, summary, contractRequirements,
                    affectedFiles, surfaceAnalysis⟩
  | _ => badPlan detail "plan is not an object"

end AdCoder.Orchestration
