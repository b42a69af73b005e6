import AdCoder.Orchestration.Plan
import AdCoder.ProjectOperations.FollowUps

/-!
# LDO artifacts

A plan or a run of the earlier tool, as it is read from its file: what the importer
accepts of it. Texts are compared after `String(value)`, so a list of one text reads
as that text.
-/

namespace AdCoder.ProjectOperations

open Foundation Orchestration

inductive LdoArtifactKind where
  | plan
  | run
  deriving DecidableEq

abbrev Fields := List (String × Json)

/-- How the host prints a number, and the texts for which `Date.parse` is a number. -/
structure LdoHost where
  showNumber : JsNumber → String
  parses : String → Bool

/-- A refusal, or the `TypeError` of a conversion. -/
inductive LdoFailure where
  | operations (error : ProjectOperationsError)
  | type
  deriving DecidableEq

/-! ## Conversions -/

mutual
/-- `String(value)`. An own `toString` of an object is data, so it is no function. -/
def display (host : LdoHost) : Json → Except LdoFailure String
  | .null => .ok "null"
  | .bool value => .ok (if value then "true" else "false")
  | .num value => .ok (host.showNumber value)
  | .str value => .ok value
  | .arr items => (displayItems host items).map fun texts => ",".intercalate texts
  | .obj fields =>
      if (Json.lookup "toString" fields).isSome then .error .type else .ok "[object Object]"

/-- The texts that `join` puts together: that of `null` is empty. -/
def displayItems (host : LdoHost) : List Json → Except LdoFailure (List String)
  | [] => .ok []
  | item :: rest => do
      let text ← match item with
        | .null => .ok ""
        | item => display host item
      let texts ← displayItems host rest
      return text :: texts
end

/-- `String(value)` of a property. -/
def displayed (host : LdoHost) : Option Json → Except LdoFailure String
  | none => .ok "undefined"
  | some value => display host value

/-- `value === text`. -/
def isText (text : String) : Option Json → Bool
  | some (.str value) => value == text
  | _ => false

def isString : Option Json → Bool
  | some (.str _) => true
  | _ => false

def isNull : Option Json → Bool
  | some .null => true
  | _ => false

def isBoolean : Option Json → Bool
  | some (.bool _) => true
  | _ => false

def isoDate (host : LdoHost) : Option Json → Bool
  | some (.str value) => host.parses value
  | _ => false

/-- A finite number that is not negative. -/
def isAmount : Option Json → Bool
  | some (.num value) => value.isFinite && value.atLeast 0
  | _ => false

def isCount : Option Json → Bool
  | some (.num value) => value.isSafeInteger && value.atLeast 0
  | _ => false

/-! ## Checks -/

section Checks

variable (host : LdoHost) (detail : String)

def ldoError (code : ProjectOperationsErrorCode) : LdoFailure := .operations ⟨code, detail⟩

/-- Refuse what is malformed. -/
def check (holds : Bool) : Except LdoFailure Unit := require holds (ldoError detail .malformedImport)

def object : Option Json → Except LdoFailure Fields
  | some (.obj fields) => .ok fields
  | _ => .error (ldoError detail .malformedImport)

def onlyKeys (fields : Fields) (allowed : List String) : Except LdoFailure Unit :=
  require (fields.all fun field => allowed.contains field.1) (ldoError detail .unsupportedImport)

def array : Option Json → Except LdoFailure (List Json)
  | some (.arr items) => .ok items
  | _ => .error (ldoError detail .malformedImport)

def stringsOnly (value : Option Json) : Except LdoFailure Unit := do
  let items ← array detail value
  check detail (items.all fun item => isString (some item))

/-- `names.includes(String(value))`. -/
def includesText (names : List String) (value : Option Json) : Except LdoFailure Unit := do
  let text ← displayed host value
  check detail (names.contains text)

/-- An object with no other keys. -/
def record (allowed : List String) (value : Option Json) : Except LdoFailure Fields := do
  let fields ← object detail value
  onlyKeys detail fields allowed
  return fields

def validateFile (item : Json) : Except LdoFailure Unit := do
  let file ← record detail ["path", "role", "note"] (some item)
  check detail (["path", "role", "note"].all fun key => isString (Json.lookup key file))

def validateStep (item : Json) : Except LdoFailure Unit := do
  let step ← record detail ["what", "files", "acceptance", "user_facing"] (some item)
  check detail (isString (Json.lookup "what" step))
  stringsOnly detail (Json.lookup "files" step)
  check detail (isString (Json.lookup "acceptance" step))
  check detail (isBoolean (Json.lookup "user_facing" step))

def validatePlan (value : Option Json) : Except LdoFailure Unit := do
  let plan ← record detail
    ["complexity", "security_surface", "summary", "steps", "risks", "codebase_context"] value
  let context ← record detail
    ["stack", "conventions", "relevant_files", "test_command", "test_command_scoped",
      "run_command"] (Json.lookup "codebase_context" plan)
  check detail (isString (Json.lookup "summary" plan))
  let steps ← array detail (Json.lookup "steps" plan)
  includesText host detail ["trivial", "medium", "complex"] (Json.lookup "complexity" plan)
  includesText host detail ["none", "low", "elevated"] (Json.lookup "security_surface" plan)
  stringsOnly detail (Json.lookup "risks" plan)
  check detail (["stack", "conventions", "test_command"].all fun key =>
    isString (Json.lookup key context))
  check detail (isString (Json.lookup "test_command_scoped" context) ||
    isNull (Json.lookup "test_command_scoped" context))
  check detail (isString (Json.lookup "run_command" context))
  let files ← array detail (Json.lookup "relevant_files" context)
  files.forM (validateFile detail)
  steps.forM (validateStep detail)

def validateFinding (item : Json) : Except LdoFailure Unit := do
  let finding ← record detail
    ["severity", "category", "plan_step", "what", "exploit_scenario", "mitigation", "cwe"]
    (some item)
  includesText host detail ["critical", "high", "medium", "low", "info"]
    (Json.lookup "severity" finding)
  check detail (["category", "plan_step", "what", "exploit_scenario", "mitigation"].all fun key =>
    isString (Json.lookup key finding))
  check detail (isString (Json.lookup "cwe" finding) || isNull (Json.lookup "cwe" finding))

def validateSecurity (value : Option Json) : Except LdoFailure Unit :=
  if value.isNone || isNull value then .ok ()
  else do
    let security ← record detail ["status", "summary", "findings", "threat_model_notes"] value
    includesText host detail ["clean", "findings"] (Json.lookup "status" security)
    check detail (isString (Json.lookup "summary" security))
    check detail (isString (Json.lookup "threat_model_notes" security) ||
      isNull (Json.lookup "threat_model_notes" security))
    let findings ← array detail (Json.lookup "findings" security)
    findings.forM (validateFinding host detail)

def validateCoder (value : Option Json) : Except LdoFailure Unit := do
  let coder ← record detail
    ["summary", "files_changed", "tests", "docs_updated", "deviations", "issue_outcomes"] value
  check detail (isString (Json.lookup "summary" coder))
  stringsOnly detail (Json.lookup "files_changed" coder)
  stringsOnly detail (Json.lookup "docs_updated" coder)
  stringsOnly detail (Json.lookup "deviations" coder)
  let tests ← record detail ["result", "command"] (Json.lookup "tests" coder)
  check detail (isString (Json.lookup "result" tests) && isString (Json.lookup "command" tests))

def validateIssue (item : Json) : Except LdoFailure Unit := do
  let issue ← record detail ["file", "severity", "what", "suggestion"] (some item)
  check detail (["what", "file", "suggestion"].all fun key => isString (Json.lookup key issue))
  includesText host detail ["critical", "major", "minor", "nit"] (Json.lookup "severity" issue)

def validateReview (value : Option Json) : Except LdoFailure Unit := do
  let review ← record detail ["status", "summary", "issues", "verification", "attacks"] value
  let verification ← record detail ["verdict", "criteria", "blockers"]
    (Json.lookup "verification" review)
  includesText host detail ["approved", "changes_requested"] (Json.lookup "status" review)
  check detail (isString (Json.lookup "summary" review))
  let issues ← array detail (Json.lookup "issues" review)
  issues.forM (validateIssue host detail)
  includesText host detail ["verified", "partial", "failed", "nothing_to_drive"]
    (Json.lookup "verdict" verification)
  let _ ← array detail (Json.lookup "criteria" verification)
  stringsOnly detail (Json.lookup "blockers" verification)
  let _ ← array detail (Json.lookup "attacks" review)

def validateUsageEntry (item : Json) : Except LdoFailure Unit := do
  let entry ← record detail ["stage", "model", "usage"] (some item)
  check detail (isString (Json.lookup "stage" entry))
  check detail (isNull (Json.lookup "model" entry) || isString (Json.lookup "model" entry))
  if isNull (Json.lookup "usage" entry) then return ()
  else
    let usage ← object detail (Json.lookup "usage" entry)
    check detail (usage.all fun token => isAmount (some token.2))

def validateUsage (value : Option Json) : Except LdoFailure Unit := do
  let items ← array detail value
  items.forM (validateUsageEntry detail)

/-- The token counts of a summary and of a stage. -/
def tokenKeys : List String :=
  ["input_tokens", "cache_creation_input_tokens", "cached_input_tokens", "output_tokens",
    "total_tokens"]

def checkTokens (fields : Fields) : Except LdoFailure Unit :=
  check detail (tokenKeys.all fun key =>
    isNull (Json.lookup key fields) || isAmount (Json.lookup key fields))

def validateTokenStage (item : Json) : Except LdoFailure Unit := do
  let stage ← record detail ("stage" :: "model" :: tokenKeys) (some item)
  check detail (isString (Json.lookup "stage" stage))
  check detail (isNull (Json.lookup "model" stage) || isString (Json.lookup "model" stage))
  checkTokens detail stage

def validateTokenUsage (value : Option Json) : Except LdoFailure Unit := do
  let summary ← record detail ("status" :: tokenKeys ++ ["stages"]) value
  includesText host detail ["measured", "partial", "unavailable"] (Json.lookup "status" summary)
  checkTokens detail summary
  let stages ← array detail (Json.lookup "stages" summary)
  stages.forM (validateTokenStage detail)

def validateBacklog (value : Option Json) : Except LdoFailure Unit := do
  let backlog ← record detail ["destination", "file", "count"] value
  check detail (isString (Json.lookup "destination" backlog))
  check detail (isNull (Json.lookup "file" backlog) || isString (Json.lookup "file" backlog))
  check detail (isCount (Json.lookup "count" backlog))

/-! ## The artifact -/

/-- `KNOWN_COMPLETED`. -/
def knownCompleted : List String :=
  ["research", "security", "coder", "reviewer1", "coderFix1", "reviewer2", "recorder"]

/-- `completed[key] !== undefined`, and then the check of the stage. -/
def validateStage (validate : Option Json → Except LdoFailure Unit) (completed : Fields)
    (key : String) : Except LdoFailure Unit :=
  if (Json.lookup key completed).isSome then validate (Json.lookup key completed) else .ok ()

/-- The status of a recorded review; `undefined` where none was recorded. -/
def reviewStatus (name : String) (completed : Fields) : Option Json :=
  match Json.lookup name completed with
  | some (.obj review) => Json.lookup "status" review
  | _ => none

/-- The final review is the second, where there is one. -/
def finalReview (completed : Fields) : String :=
  if (Json.lookup "reviewer2" completed).isSome then "reviewer2" else "reviewer1"

/-- The stages follow each other, and a completed run is approved. -/
def isStale (artifact completed : Fields) : Bool :=
  let has (key : String) : Bool := (Json.lookup key completed).isSome
  let asked : Bool := isText "changes_requested" (reviewStatus "reviewer1" completed)
  (has "reviewer1" && !has "coder") ||
    (has "coderFix1" && !asked) ||
    (has "reviewer2" && !has "coderFix1") ||
    (has "reviewer2" && !asked) ||
    isText "changes_requested" (reviewStatus "reviewer2" completed) ||
    (isText "completed" (Json.lookup "status" artifact) &&
      (!isoDate host (Json.lookup "completedAt" artifact) ||
        !isText "approved" (reviewStatus (finalReview completed) completed) ||
        !(match Json.lookup "approved" artifact with
          | some (.bool true) => true
          | _ => false) ||
        (Json.lookup "tokenUsage" artifact).isNone ||
        (Json.lookup "backlog" artifact).isNone)) ||
    (isText "running" (Json.lookup "status" artifact) &&
      (Json.lookup "approved" artifact).isSome)

def validateRun (artifact : Fields) : Except LdoFailure Unit := do
  includesText host detail ["running", "completed"] (Json.lookup "status" artifact)
  let completed ← object detail (Json.lookup "completed" artifact)
  require (completed.all fun stage => knownCompleted.contains stage.1)
    (ldoError detail .unsupportedImport)
  validateStage (validateCoder detail) completed "coder"
  validateStage (validateCoder detail) completed "coderFix1"
  validateStage (validateReview host detail) completed "reviewer1"
  validateStage (validateReview host detail) completed "reviewer2"
  validateStage (validateTokenUsage host detail) artifact "tokenUsage"
  require (!isStale host artifact completed) (ldoError detail .staleImport)
  if isText "completed" (Json.lookup "status" artifact) then
    validateBacklog detail (Json.lookup "backlog" artifact)
  else return ()

/-- The keys of an artifact. -/
def artifactKeys : LdoArtifactKind → List String
  | .plan => ["version", "id", "root", "baseHead", "createdAt", "task", "plan", "security",
      "usage"]
  | .run => ["version", "id", "root", "baseHead", "task", "plan", "security", "status",
      "startedAt", "usage", "completed", "tokenUsage", "completedAt", "approved", "backlog"]

/-- The property that dates an artifact. -/
def dateKey : LdoArtifactKind → String
  | .plan => "createdAt"
  | .run => "startedAt"

def isVersionOne : Option Json → Bool
  | some (.num value) => value == 1
  | _ => false

/-- `validateArtifact`; the id of the artifact names it in every error. -/
def validateArtifact (value : Json) (kind : LdoArtifactKind) (id : String) :
    Except LdoFailure Fields := do
  let artifact ← record id (artifactKeys kind) (some value)
  check id (isVersionOne (Json.lookup "version" artifact) &&
    isText id (Json.lookup "id" artifact) &&
    (["root", "baseHead", "task"].all fun key => isString (Json.lookup key artifact)) &&
    isoDate host (Json.lookup (dateKey kind) artifact))
  validatePlan host id (Json.lookup "plan" artifact)
  validateSecurity host id (Json.lookup "security" artifact)
  validateUsage id (Json.lookup "usage" artifact)
  match kind with
  | .plan => return artifact
  | .run => do
      validateRun host id artifact
      return artifact

end Checks

end AdCoder.ProjectOperations
