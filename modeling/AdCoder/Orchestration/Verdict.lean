import AdCoder.Orchestration.Types

/-!
# Validation of a submitted verdict

`parseVerdict` re-validates the arguments of a `submit_verdict` call. Its parts
are separate functions in the order in which the validator runs them: the
issues, the carried findings, the coverage matrix and the removed tests.
-/

namespace AdCoder.Orchestration

open Foundation Foundation.Regex

/-- `VERDICT_ISSUE_FIELDS`: byte bounds of the fields, and the list bounds. -/
structure VerdictIssueFields where
  what : Nat
  location : Nat
  closureCriterion : Nat
  findingId : Nat
  evidence : Nat
  maxIssues : Nat
  maxAggregateBytes : Nat
  summary : Nat

def verdictIssueFields : VerdictIssueFields where
  what := 2000
  location := 400
  closureCriterion := 1200
  findingId := 120
  evidence := 1600
  maxIssues := 40
  maxAggregateBytes := 100000
  summary := 4000

/-- `ARTIFACT_ONLY`: a complaint about the pipeline's own paperwork. -/
def artifactOnly : Regex := choice [
  sequence [
    choice [
      sequence [literalI "review", spaces, optional (.seq (literalI "-") spaces),
        choice [literalI "artifact", literalI "stamp"]],
      literalI "review", literalI "round", literalI "stamp", literalI "freshness",
      literalI "accounting", literalI "process"],
    plus space,
    choice [literalI "artifact", literalI "metadata", literalI "bookkeeping",
      literalI "stamp", literalI "freshness"]],
  sequence [choice [literalI "stale", literalI "outdated"], plus space,
    optional (.seq (literalI "review") spaces), literalI "stamp"]]

private def openOrDraft : Regex := sequence [plus space,
  optional (sequence [literalI "a", optional (literalI "n"), plus space]),
  choice [literalI "open", literalI "draft"]]

private def shipped : Regex :=
  choice [literalI "merged", literalI "released", literalI "published"]

/-- `EXTERNAL_STATE`: a state that work on the reviewed tree cannot change. -/
def externalState : Regex := choice [
  sequence [literalI "pull", spaces, literalI "request"],
  sequence [literalI "pull", optional (literalI "-"), literalI "request"],
  sequence [literalI "merge", spaces, literalI "commit"],
  sequence [literalI "merge", spaces, literalI "state"],
  sequence [literalI "merge", spaces, literalI "queue"],
  sequence [literalI "merge", spaces, literalI "blocked"],
  literalI "mergestatestatus",
  sequence [literalI "remain", optional (literalI "s"), openOrDraft],
  sequence [literalI "still", openOrDraft],
  sequence [choice [literalI "has", literalI "have"], plus space, literalI "not",
    plus space, literalI "been", plus space, shipped],
  sequence [literalI "not", plus space, literalI "yet", plus space, shipped],
  sequence [literalI "is", plus space, literalI "not", plus space, shipped],
  sequence [choice [literalI "another", literalI "prior", literalI "previous",
      literalI "other"], plus space,
    choice [literalI "round", literalI "review", literalI "reviewer"],
    optional (choice [literalI "'s", literalI "s'"]), plus space,
    choice [literalI "pending", literalI "outstanding"]],
  sequence [choice [literalI "pending", literalI "unpublished", literalI "unreleased"],
    plus space, literalI "release"],
  sequence [choice [literalI "ci", literalI "workflow", literalI "build",
      literalI "pre-merge"], plus space, choice [literalI "run", literalI "gate"],
    plus space, choice [literalI "has", literalI "have"], plus space, literalI "not"]]

private def isNameChar (x : Char) : Bool :=
  isAlnum x || x == '_' || x == '+' || x == '@' || x == '-'

private def nameChars : Regex := plus (.one isNameChar)

private def dottedName : Regex := .seq nameChars (star (.seq (literal ".") nameChars))

/-- `NAMES_TREE_LOCATION`: a path with a separator, a top-level dotfile or a
bare file name, with an optional line suffix. -/
def namesTreeLocation : Regex := sequence [
  notBehind fun x => isWord x || x == '.' || x == '/' || x == ':' || x == '@' ||
    x == '+' || x == '-',
  choice [
    sequence [
      .ahead (.seq (star (.one fun x => isNameChar x || x == '.' || x == '/'))
        (.one fun x => x == '.' || x == '_' || isDigit x || x == '-')),
      optional (literal "."), dottedName,
      plus (sequence [literal "/", optional (literal "."), dottedName])],
    sequence [literal ".", .one isLetter, star (.one isNameChar),
      star (.seq (literal ".") nameChars)],
    sequence [dottedName, literal ".", .one isLetter,
      .rep true 1 (some 7) (.one isAlnum)]],
  optional (sequence [literal ":", digits, optional (.seq (literal "-") digits)])]

private def credentialText : Regex := sequence [
  choice [literalI "bearer", literalI "token", literalI "password", literalI "secret",
    sequence [literalI "api", optional (oneOf "_ -"), literalI "key"]],
  spaces, oneOf ":=", spaces, plus (.one fun x => !isSpace x)]

private def absolutePathText : Regex := sequence [
  choice [atStart, space],
  choice [literal "/home/", literal "/Users/", sequence [.one isLetter, literal ":\\"]],
  star (.one fun x => !isSpace x)]

def redactFinding (value : String) : String :=
  replaceAll absolutePathText " [REDACTED_PATH]" (replaceAll credentialText "[REDACTED]" value)

/-- The text of a value that is a non-blank string. -/
def hasText? : Option Json → Option String
  | some (.str s) => if trim s = "" then none else some s
  | _ => none

/-- The `bad` of the validator: every refusal is a `malformed_verdict`. -/
def malformedVerdict (detail message : String) : OrchestrationError :=
  ⟨.malformedVerdict, detail, message⟩

/-- A required text field of at most `most` bytes. -/
def bounded (detail place field : String) (value : Option Json) (most : Nat) :
    Except OrchestrationError String :=
  match hasText? value with
  | none => .error (malformedVerdict detail
      ("verdict." ++ place ++ "." ++ field ++ " must be a non-empty string"))
  | some s =>
      if byteLength s > most then .error (malformedVerdict detail
        ("verdict." ++ place ++ "." ++ field ++ " exceeds " ++ toString most ++ " bytes"))
      else .ok s

/-- A text field that may be absent but must be bounded when it is present. -/
def optionalBounded (detail place field : String) (value : Option Json) (most : Nat) :
    Except OrchestrationError (Option String) :=
  match value with
  | none => .ok none
  | some _ => (bounded detail place field value most).map some

def needsAddress : IssueSeverity → Bool
  | .blocker => true
  | .major => true
  | .minor => false

/-- An address field: required where the severity needs one, else free text
with a fixed fallback. -/
def addressField (detail place field : String) (severity : IssueSeverity)
    (value : Option Json) (most : Nat) (fallback : String) :
    Except OrchestrationError String :=
  if needsAddress severity then (bounded detail place field value most).map redactFinding
  else match value with
    | some (.str s) => .ok (redactFinding s)
    | _ => .ok fallback

def parseSeverity (detail place : String) (value : Option Json) :
    Except OrchestrationError IssueSeverity :=
  match (Json.asString? value).bind IssueSeverity.ofText? with
  | some severity => .ok severity
  | none => .error (malformedVerdict detail
      ("verdict." ++ place ++ ".severity must be one of blocker, major, minor"))

def parseResolution (detail place : String) (value : Option Json) :
    Except OrchestrationError (Option Resolution) :=
  match value with
  | none => .ok none
  | some v =>
      match (Json.asString? (some v)).bind Resolution.ofText? with
      | some resolution => .ok (some resolution)
      | none => .error (malformedVerdict detail
          ("verdict." ++ place ++ ".resolution must be closed, remains, or new"))

/-- The members that the aggregate byte bound measures. -/
def issueText (issue : VerdictIssue) : String :=
  let member (name : String) : Option String → List (String × String)
    | none => []
    | some s => [(name, Json.quote s)]
  Json.objectText (
    [("what", Json.quote issue.what)] ++ member "location" issue.location ++
      member "closureCriterion" issue.closureCriterion ++ member "findingId" issue.findingId ++
      member "resolution" (issue.resolution.map Resolution.text) ++
      member "evidence" issue.evidence)

def externalStateMessage (place severity : String) : String :=
  "verdict." ++ place ++ " a " ++ severity ++ " whose defect IS external state -- an unmerged pull request, an absent merge commit, another round's or reviewer's pending action, a CI run that has not finished, an unpublished release -- cannot be caused or observed from the reviewed tree, so this round cannot act on it; a real defect in the tree that merely MENTIONS such a state" ++
    " stays addressable with a file:line or fixture location, and this one belongs in verdict.summary; resubmit it in summary"

/-- One entry of `issues`. `seen` holds the finding ids of the earlier entries
and `bytes` their measured size. -/
def parseIssue (detail : String) (index : Nat) (seen : List String) (bytes : Nat)
    (entry : Json) : Except OrchestrationError (VerdictIssue × Nat) :=
  let place := "issues[" ++ toString index ++ "]"
  match entry with
  | .obj issue => do
      let severity ← parseSeverity detail place (Json.lookup "severity" issue)
      let what ← (bounded detail place "what" (Json.lookup "what" issue)
        verdictIssueFields.what).map redactFinding
      let location ← addressField detail place "location" severity
        (Json.lookup "location" issue) verdictIssueFields.location "summary"
      let closureCriterion ← addressField detail place "closureCriterion" severity
        (Json.lookup "closureCriterion" issue) verdictIssueFields.closureCriterion
        "reviewer-specified"
      require (!(needsAddress severity && artifactOnly.test what)) (malformedVerdict detail
        ("verdict." ++ place ++ " review-artifact-only complaints belong in verdict.summary, not "
          ++ severity.text ++ "; resubmit it in summary"))
      require (!(needsAddress severity && externalState.test what &&
          !namesTreeLocation.test location))
        (malformedVerdict detail (externalStateMessage place severity.text))
      let findingId ← (optionalBounded detail place "findingId" (Json.lookup "findingId" issue)
        verdictIssueFields.findingId).map (·.map redactFinding)
      let evidence ← (optionalBounded detail place "evidence" (Json.lookup "evidence" issue)
        verdictIssueFields.evidence).map (·.map redactFinding)
      let resolution ← parseResolution detail place (Json.lookup "resolution" issue)
      require (!(needsAddress severity && findingId.isNone)) (malformedVerdict detail
        ("verdict." ++ place ++ ".findingId is required for blocker and major findings"))
      require (!(resolution = some .closed && evidence.isNone)) (malformedVerdict detail
        ("verdict." ++ place ++ ".evidence is required when resolution is closed"))
      require (findingId.all fun id => !seen.contains id) (malformedVerdict detail
        ("verdict." ++ place ++ ".findingId must be unique within the verdict"))
      let parsed : VerdictIssue :=
        ⟨severity, what, some location, some closureCriterion, findingId, resolution, evidence⟩
      let total := bytes + byteLength (issueText parsed)
      require (total ≤ verdictIssueFields.maxAggregateBytes) (malformedVerdict detail
        ("verdict.issues exceeds " ++ toString verdictIssueFields.maxAggregateBytes ++ " bytes"))
      return (parsed, total)
  | _ => .error (malformedVerdict detail ("verdict." ++ place ++ " must be an object"))

/-- The entries of `issues`, in order. -/
def parseIssues (detail : String) :
    Nat → List String → Nat → List Json → Except OrchestrationError (List VerdictIssue)
  | _, _, _, [] => .ok []
  | index, seen, bytes, entry :: rest => do
      let (issue, total) ← parseIssue detail index seen bytes entry
      let later ← parseIssues detail (index + 1) (issue.findingId.toList ++ seen) total rest
      return issue :: later

/-- The prior findings that a later verdict must account for. -/
def carriedFindings (priorFindings : List VerdictIssue) : List VerdictIssue :=
  priorFindings.filter fun finding => finding.findingId.isSome || finding.severity ≠ .minor

/-- An issue accounts for a prior finding when it is closed or remains. -/
def accounts (issue : VerdictIssue) : Bool :=
  issue.resolution = some .closed || issue.resolution = some .remains

def checkCarriedIssue (detail : String) (carriedIds : List String) (issue : VerdictIssue) :
    Except OrchestrationError Unit :=
  let carriesPriorFinding := issue.findingId.any carriedIds.contains
  if issue.severity = .minor ∧ carriesPriorFinding = false then .ok ()
  else do
    require (issue.findingId.isSome && issue.resolution.isSome) (malformedVerdict detail
      ("verdict.issues findingId " ++ issue.findingId.getD "<missing>" ++
        " must declare resolution"))
    require (!(issue.resolution = some .new && carriesPriorFinding)) (malformedVerdict detail
      ("verdict.issues findingId " ++ issue.findingId.getD "<missing>" ++
        " cannot be new when it is carried"))

/-- Every carried identity is closed or remains, and no issue relabels one. -/
def checkCarried (detail : String) (priorFindings issues : List VerdictIssue) :
    Except OrchestrationError Unit :=
  let carried := carriedFindings priorFindings
  if carried.isEmpty then .ok ()
  else do
    require (carried.all (·.findingId.isSome))
      (malformedVerdict detail "prior findings must all have findingId")
    let carriedIds := carried.filterMap (·.findingId)
    let resolvedIds := (issues.filter accounts).map (·.findingId)
    match carriedIds.find? fun id => !resolvedIds.contains (some id) with
    | some id => .error (malformedVerdict detail
        ("verdict.issues must account for carried findingId " ++ id ++
          " as closed with evidence or remains; resubmit it instead of silently dropping it"))
    | none => issues.forM (checkCarriedIssue detail carriedIds)

/-- One entry of `coverage`. -/
def parseCoverageEntry (detail : String) (index : Nat) (entry : Json) :
    Except OrchestrationError ReviewCoverage :=
  let place := "verdict.coverage[" ++ toString index ++ "]"
  match entry with
  | .obj item =>
      match Json.lookup "surfaceId" item with
      | some (.str surfaceId) =>
          match Json.lookup "contractIds" item with
          | some (.arr ids) =>
              match Json.strings? ids with
              | some contractIds =>
                  match Json.lookup "evidence" item with
                  | some (.arr entries) =>
                      match Json.strings? entries with
                      | some evidence => .ok ⟨surfaceId, contractIds, evidence⟩
                      | none => .error (malformedVerdict detail
                          (place ++ ".evidence must be an array of strings"))
                  | _ => .error (malformedVerdict detail
                      (place ++ ".evidence must be an array of strings"))
              | none => .error (malformedVerdict detail
                  (place ++ ".contractIds must be an array of strings"))
          | _ => .error (malformedVerdict detail
              (place ++ ".contractIds must be an array of strings"))
      | _ => .error (malformedVerdict detail (place ++ ".surfaceId must be a string"))
  | _ => .error (malformedVerdict detail (place ++ " must be an object"))

def parseCoverageEntries (detail : String) :
    Nat → List Json → Except OrchestrationError (List ReviewCoverage)
  | _, [] => .ok []
  | index, entry :: rest => do
      let item ← parseCoverageEntry detail index entry
      let later ← parseCoverageEntries detail (index + 1) rest
      return item :: later

/-- The entries a plan marked covered. -/
def applicableCoverage (expected : Option SurfaceAnalysis) : List ContractCoverage :=
  match expected with
  | none => []
  | some analysis => analysis.coverage.filter (·.status = .covered)

/-- `expectedBySurface.get`: the contract ids that the plan recorded last. -/
def contractsOf (applicable : List ContractCoverage) (surfaceId : String) :
    Option (List String) :=
  (applicable.reverse.find? (·.surfaceId = surfaceId)).map (·.contractIds)

/-- The comparison of the submitted matrix with the plan's, entry by entry. -/
def checkCoverage (detail : String) (applicable : List ContractCoverage) :
    Nat → List String → List ReviewCoverage → Except OrchestrationError Unit
  | _, _, [] => .ok ()
  | index, seen, item :: rest =>
      match contractsOf applicable item.surfaceId with
      | none => .error (malformedVerdict detail
          "verdict.coverage contains unknown or duplicate surfaceId")
      | some contractIds => do
          require (!seen.contains item.surfaceId) (malformedVerdict detail
            "verdict.coverage contains unknown or duplicate surfaceId")
          require (item.contractIds.length == contractIds.dedup.length &&
              item.contractIds.all contractIds.contains) (malformedVerdict detail
            ("verdict.coverage[" ++ toString index ++
              "].contractIds must exactly match required contract IDs: " ++
              ", ".intercalate contractIds ++ "; resubmit the verdict with those IDs"))
          require (!item.evidence.isEmpty) (malformedVerdict detail
            ("verdict.coverage[" ++ toString index ++
              "].evidence must include at least one verification result; resubmit the verdict with evidence"))
          checkCoverage detail applicable (index + 1) (item.surfaceId :: seen) rest

/-- The coverage of a verdict, when the plan marked a surface covered. -/
def parseCoverage (detail : String) (expected : Option SurfaceAnalysis)
    (value : Option Json) : Except OrchestrationError (Option (List ReviewCoverage)) :=
  let applicable := applicableCoverage expected
  if applicable.isEmpty then .ok none
  else match value with
    | some (.arr entries) => do
        let coverage ← parseCoverageEntries detail 0 entries
        require (coverage.length == (applicable.map (·.surfaceId)).dedup.length)
          (malformedVerdict detail "verdict.coverage is incomplete")
        checkCoverage detail applicable 0 [] coverage
        return some coverage
    | _ => .error (malformedVerdict detail "verdict.coverage must be an array")

/-- One entry of `removedTests`. -/
def parseRemovedTest (detail : String) (index : Nat) (entry : Json) :
    Except OrchestrationError RemovedTestBehavior :=
  let place := "removedTests[" ++ toString index ++ "]"
  match entry with
  | .obj item => do
      let removedTestId ← bounded detail place "removedTestId"
        (Json.lookup "removedTestId" item) 200
      let behavior ← bounded detail place "behavior" (Json.lookup "behavior" item) 1200
      let destination ← bounded detail place "destination" (Json.lookup "destination" item) 400
      match Json.asString? (Json.lookup "fate" item) with
      | some "restored" =>
          return ⟨removedTestId, redactFinding behavior, redactFinding destination, .restored⟩
      | some "moved" =>
          return ⟨removedTestId, redactFinding behavior, redactFinding destination, .moved⟩
      | _ => .error (malformedVerdict detail
          ("verdict." ++ place ++ ".fate must be restored or moved"))
  | _ => .error (malformedVerdict detail ("verdict." ++ place ++ " must be an object"))

def parseRemovedTestEntries (detail : String) :
    Nat → List Json → Except OrchestrationError (List RemovedTestBehavior)
  | _, [] => .ok []
  | index, entry :: rest => do
      let item ← parseRemovedTest detail index entry
      let later ← parseRemovedTestEntries detail (index + 1) rest
      return item :: later

def parseRemovedTests (detail : String) (value : Option Json) :
    Except OrchestrationError (Option (List RemovedTestBehavior)) :=
  match value with
  | none => .ok none
  | some (.arr entries) => (parseRemovedTestEntries detail 0 entries).map some
  | some _ => .error (malformedVerdict detail "verdict.removedTests must be an array")

/-- The comparison of the submitted removed tests with the machine inventory. -/
def checkRemovedTests (detail : String)
    (inventory : Option (List RemovedTestInventoryEntry))
    (removedTests : Option (List RemovedTestBehavior)) : Except OrchestrationError Unit :=
  match inventory with
  | none => .ok ()
  | some inventory => do
      require (!(!inventory.isEmpty && removedTests.isNone)) (malformedVerdict detail
        "verdict.removedTests is required: account for every removed test behavior")
      let expectedIds := (inventory.map (·.removedTestId)).dedup
      let actualIds := ((removedTests.getD []).map (·.removedTestId)).dedup
      require (removedTests.all fun entries =>
          entries.length == expectedIds.length && actualIds.length == expectedIds.length &&
            expectedIds.all actualIds.contains) (malformedVerdict detail
        "verdict.removedTests must account for every machine-inventoried removed test behavior")

def parseStatus (detail : String) (value : Option Json) :
    Except OrchestrationError VerdictStatus :=
  match (Json.asString? value).bind VerdictStatus.ofText? with
  | some status => .ok status
  | none => .error (malformedVerdict detail
      "verdict.status must be one of approved, changes_requested, decomposition_required")

/-- The list of submitted issues, before any entry is read. -/
def submittedIssues (detail : String) (value : Option Json) :
    Except OrchestrationError (List Json) :=
  match value with
  | some (.arr entries) =>
      if entries.length > verdictIssueFields.maxIssues then .error (malformedVerdict detail
        ("verdict.issues exceeds the maximum of " ++ toString verdictIssueFields.maxIssues ++
          " findings"))
      else .ok entries
  | _ => .error (malformedVerdict detail "verdict.issues must be an array")

def parseSummary (detail : String) (value : Option Json) :
    Except OrchestrationError String :=
  match value with
  | some (.str summary) =>
      if byteLength summary > verdictIssueFields.summary then .error (malformedVerdict detail
        ("verdict.summary exceeds " ++ toString verdictIssueFields.summary ++ " bytes"))
      else .ok summary
  | _ => .error (malformedVerdict detail "verdict.summary must be a string")

/-- Validate untrusted input into a verdict, or refuse it. -/
def parseVerdict (value : Json) (detail : String) (expected : Option SurfaceAnalysis)
    (priorFindings : List VerdictIssue)
    (removedTestInventory : Option (List RemovedTestInventoryEntry)) :
    Except OrchestrationError Verdict :=
  match value with
  | .obj record => do
      let status ← parseStatus detail (Json.lookup "status" record)
      let rawIssues ← submittedIssues detail (Json.lookup "issues" record)
      let issues ← parseIssues detail 0 [] 0 rawIssues
      require (!(status = .changesRequested && issues.isEmpty)) (malformedVerdict detail
        "verdict.issues must name at least one REMAINING defect when verdict.status is \"changes_requested\" (an empty list means nothing must change: resolved findings belong in verdict.summary, and \"approved\" is the verdict with an empty verdict.issues); resubmit the corrected verdict")
      checkCarried detail priorFindings issues
      let summary ← parseSummary detail (Json.lookup "summary" record)
      let coverage ← parseCoverage detail expected (Json.lookup "coverage" record)
      let removedTests ← parseRemovedTests detail (Json.lookup "removedTests" record)
      checkRemovedTests detail removedTestInventory removedTests
      -- An approved round is terminal and hands no finding on.
      return ⟨status, if status = .approved then [] else issues, redactFinding summary,
        coverage, removedTests⟩
  | _ => .error (malformedVerdict detail "verdict is not an object")

end AdCoder.Orchestration
