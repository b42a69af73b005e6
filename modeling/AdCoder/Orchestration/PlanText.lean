import AdCoder.Foundation.JsonReaders
import AdCoder.Orchestration.Plan

/-!
# Plans in a planner's text

`parsePlanText` recovers a plan from a turn that answered in text. The
candidates are the whole text, what stands between code fences and the objects
of a brace scan; every candidate is parsed, and two different plans are refused.
-/

namespace AdCoder.Orchestration

open Foundation Foundation.Regex

def Complexity.text : Complexity → String
  | trivial => "trivial"
  | medium => "medium"
  | complex => "complex"

def SecuritySurface.text : SecuritySurface → String
  | none => "none"
  | low => "low"
  | elevated => "elevated"

def ContractCoverageStatus.text : ContractCoverageStatus → String
  | covered => "covered"
  | notApplicable => "not_applicable"
  | researchRequired => "research_required"

/-! ## The brace scan -/

/-- The loop of `sliceBalancedObject`: the text up to the brace that closes the object. -/
def balancedSlice (depth : Int) (inString escaped : Bool) : List Char → Option (List Char)
  | [] => none
  | char :: rest =>
      if escaped then (balancedSlice depth inString false rest).map (char :: ·)
      else if char = '\\' then (balancedSlice depth inString true rest).map (char :: ·)
      else if char = '"' then (balancedSlice depth (!inString) false rest).map (char :: ·)
      else if inString then (balancedSlice depth true false rest).map (char :: ·)
      else if char = '{' then (balancedSlice (depth + 1) false false rest).map (char :: ·)
      else if char = '}' then
        if depth - 1 = 0 then some [char]
        else (balancedSlice (depth - 1) false false rest).map (char :: ·)
      else (balancedSlice depth false false rest).map (char :: ·)

/-- `text.indexOf("{", from)`. -/
def indexOfBrace (text : List Char) (start : Nat) : Option Nat :=
  ((text.drop start).findIdx? (· == '{')).map (start + ·)

def sliceBalancedObject (text : List Char) (start : Nat) : Option (List Char) :=
  match indexOfBrace text start with
  | none => none
  | some brace => balancedSlice 0 false false (text.drop brace)

/-! ## Candidates -/

/-- The `add` of the extractor. -/
def addCandidate (candidates : List (List Char)) (candidate : List Char) : List (List Char) :=
  let trimmed := trimList candidate
  if trimmed = [] ∨ trimmed ∈ candidates then candidates else candidates ++ [trimmed]

def fenceMark : String := "```"

/-- What the group of /```(?:json)?\s*([\s\S]*?)```/g captures. -/
def fencedTexts (value : List Char) : List (List Char) :=
  captureFrom (sequence [literal fenceMark, optional (literal "json"), spaces])
    (.rep false 0 none (.one fun _ => true)) (literal fenceMark) (value.length + 1) ⟨[], value⟩

/-- The objects of the scan. The cursor goes forward, so `fuel` need not exceed the
length of the text. -/
def sliceCandidates (value : List Char) :
    Nat → Nat → List (List Char) → List (List Char)
  | 0, _, candidates => candidates
  | fuel + 1, cursor, candidates =>
      match indexOfBrace value cursor with
      | none => candidates
      | some start =>
          match sliceBalancedObject value start with
          | none => candidates
          | some sliced =>
              sliceCandidates value fuel (start + sliced.length) (addCandidate candidates sliced)

def planTextCandidates (value : List Char) : List (List Char) :=
  let whole :=
    if value.head? = some '{' ∧ value.getLast? = some '}' then addCandidate [] value else []
  let fenced := (fencedTexts value).foldl addCandidate whole
  sliceCandidates value (value.length + 1) 0 fenced

/-! ## Plans -/

/-- The value that `JSON.stringify` writes of a plan. -/
def planJson (plan : Plan) : Json :=
  let texts (items : List String) : Json := .arr (items.map .str)
  .obj [
    ("complexity", .str plan.complexity.text),
    ("securitySurface", .str plan.securitySurface.text),
    ("summary", .str plan.summary),
    ("contractRequirements", texts plan.contractRequirements),
    ("affectedFiles", texts plan.affectedFiles),
    ("surfaceAnalysis", .obj [
      ("projectType", .str plan.surfaceAnalysis.projectType),
      ("surfaces", .arr (plan.surfaceAnalysis.surfaces.map fun surface => .obj [
        ("id", .str surface.id), ("name", .str surface.name),
        ("rationale", .str surface.rationale)])),
      ("coverage", .arr (plan.surfaceAnalysis.coverage.map fun item => .obj [
        ("surfaceId", .str item.surfaceId), ("status", .str item.status.text),
        ("contractIds", texts item.contractIds), ("evidence", texts item.evidence),
        ("rationale", .str item.rationale)]))])]

section Text

variable (format : NumberFormat) (detail : String) (limits : SurfaceAnalysisLimits)

def planKey (plan : Plan) : String := (planJson plan).stringify format.print

/-- The plans whose key was not seen before. -/
def distinctPlans : List String → List Plan → List Plan
  | _, [] => []
  | seen, plan :: rest =>
      if planKey format plan ∈ seen then distinctPlans seen rest
      else plan :: distinctPlans (planKey format plan :: seen) rest

/-- `Object.hasOwn(decoded, "complexity")` of an object. -/
def planShaped : Json → Bool
  | .obj fields => (Json.lookup "complexity" fields).isSome
  | _ => false

/-- The arrays of the loop over the candidates. -/
structure PlanAttempts where
  plans : List Plan
  errors : List (OrchestrationError × Bool)

def invalidHandoff : OrchestrationError :=
  ⟨.malformedPlan, detail, "planner JSON handoff is invalid"⟩

def attemptCandidate (attempts : PlanAttempts) (candidate : List Char) :
    Except PlanFailure PlanAttempts :=
  match JsonText.parse format candidate with
  | none => .ok { attempts with errors := attempts.errors ++ [(invalidHandoff detail, false)] }
  | some decoded =>
      match parsePlan format decoded detail limits with
      | .ok plan => .ok { attempts with plans := attempts.plans ++ [plan] }
      | .error (.orchestration error) =>
          .ok { attempts with errors := attempts.errors ++ [(error, planShaped decoded)] }
      | .error .typeError => .error .typeError

def parsePlanText (text : String) : Except PlanFailure (Option Plan) := do
  let value := trimList text.toList
  let candidates := planTextCandidates value
  if candidates = [] then
    if '{' ∈ value then
      .error (malformedPlan detail
        "planner JSON handoff is truncated: the submitted object never closes")
    else if value ≠ [] then
      .error (.orchestration ⟨.planNotJson, detail, "planner response carried no JSON object"⟩)
    else .ok none
  else do
    let attempts ← candidates.foldlM (attemptCandidate format detail limits) ⟨[], []⟩
    match distinctPlans format [] attempts.plans with
    | _ :: _ :: _ => .error (malformedPlan detail
        "planner text contains more than one distinct plan; submit exactly one")
    | [plan] => .ok (some plan)
    | [] =>
        match (attempts.errors.find? (·.2)).or attempts.errors.head? with
        | some (error, _) => .error (.orchestration error)
        | none => .error (.orchestration (invalidHandoff detail))

end Text

end AdCoder.Orchestration
